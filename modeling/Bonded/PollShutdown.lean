import Bonded.PollIteration
import Bonded.PollThread

/-! How the poll thread ends. It returns when it finds the command channel disconnected, but
dropping the sender neither sets the flag nor notifies, so a thread that sleeps without a
timeout at that moment is never told. -/
namespace Bonded.PollShutdown

open Machine PollThread
open SmoltcpForwarder hiding Event step

section Shutdown

variable {τ : Type} (api : TcpApi τ) (pollDelay : List (Option (Slot τ)) → ℕ → Option ℕ)

/-- The thread waits without a timeout for a session that is gone, and nobody will wake it. -/
def Stranded (s : Poller τ) : Prop :=
  s.place = .blocked none ∧ s.connected = false ∧ s.work = false ∧ s.notifying = 0

/-- The thread has returned, or a panic has ended it. -/
def Ended (s : Poller τ) : Prop := s.place = .returned ∨ s.forwarder.phase = .stopped

/-- Once the sender is gone, and when no call or bridge adds work, the thread takes a bounded
number of steps, and it has ended when it can take no more. -/
def EndsAlone (s : Poller τ) : Prop :=
  s.connected = false → ∃ bound, ∀ es t, (∀ e ∈ es, e.isThread = true) →
    exec (step api pollDelay) s es = some t →
    es.length ≤ bound ∧ ((∀ e, e.isThread = true → step api pollDelay t e = none) → Ended t)

/-- The thread will look at the channel again: it is about to, the flag is set or will be,
or its wait has a timeout. -/
def LooksAgain (s : Poller τ) : Prop :=
  (s.place = .running ∧ s.forwarder.phase = .drain) ∨ s.work = true ∨ s.notifying ≠ 0 ∨
    Ended s ∨ s.nextPollWait ≠ none

/-- The forwarder is dropped only while the thread will look at the channel again. -/
def DropsAwake (s : Poller τ) : Event → Prop
  | .drop => LooksAgain s
  | _ => True

instance (s : Poller τ) : Decidable (Ended s) := by
  unfold Ended
  infer_instance

instance (s : Poller τ) : Decidable (LooksAgain s) := by
  unfold LooksAgain
  infer_instance

instance (s : Poller τ) (e : Event) : Decidable (DropsAwake s e) := by
  cases e <;> unfold DropsAwake <;> infer_instance

instance (s : Poller τ) : Decidable (Stranded s) := by
  unfold Stranded
  infer_instance

/-- A bound on the steps that are left without new work. -/
def remaining (s : Poller τ) : ℕ :=
  s.notifying+s.forwarder.queue.length+s.forwarder.tx.length+
    match s.place with
    | .returned => 0
    | .running => if s.forwarder.phase = .emit then 4 else 1
    | .blocked _ => 2
    | .top => 3

end Shutdown

section Leaving

variable {τ : Type} {api : TcpApi τ} {pollDelay : List (Option (Slot τ)) → ℕ → Option ℕ}
variable {s t : Poller τ}

/-- The invariant of runs in which the forwarder is dropped at a good moment. -/
structure Leaving (s : Poller τ) : Prop where
  placed : Placed s
  looks : s.connected = false → LooksAgain s

theorem leaving_spawn : Leaving (spawn τ) := ⟨placed_spawn,fun h => by cases h⟩

theorem Leaving.not_stranded (h : Leaving s) : ¬ Stranded s := by
  rintro ⟨hplace,hconnected,hwork,hnotifying⟩
  have hwait := (h.placed.waits _ hplace).1
  have hphase := h.placed.idle (.inr ⟨none,hplace⟩)
  have hlooks := h.looks hconnected
  simp [LooksAgain,Ended,hplace,hwork,hnotifying,hwait,hphase] at hlooks

/-- In the second part of the loop body only the flag or a timeout brings the thread back. -/
theorem looks_emit (h : LooksAgain s) (hplace : s.place = .running)
    (hphase : s.forwarder.phase = .emit) :
    s.work = true ∨ s.notifying ≠ 0 ∨ s.nextPollWait ≠ none := by
  simpa [LooksAgain,Ended,hplace,hphase] using h

theorem looks_of_emit (h : s.work = true ∨ s.notifying ≠ 0 ∨ s.nextPollWait ≠ none) :
    LooksAgain s := by
  rcases h with hwork | hnotifying | hwait
  · exact .inr (.inl hwork)
  · exact .inr (.inr (.inl hnotifying))
  · exact .inr (.inr (.inr (.inr hwait)))

theorem LooksAgain.fed (h : LooksAgain s) (hf : Fed s t) (hn : s.notifying ≤ t.notifying) :
    LooksAgain t := by
  rw [LooksAgain,Ended,hf.place,hf.phase,hf.work,hf.nextPollWait]
  rcases h with hrun | hwork | hnotifying | hended
  · exact .inl hrun
  · exact .inr (.inl hwork)
  · exact .inr (.inr (.inl (by omega)))
  · exact .inr (.inr (.inr hended))

theorem notifying_injectCall (s : Poller τ) (payload : List UInt8) :
    s.notifying ≤ (injectCall s payload).notifying := by
  unfold injectCall
  split <;> simp

theorem notifying_sendChunk {handle : ℕ} {bytes : List UInt8}
    (h : sendChunk s handle bytes = some t) : s.notifying ≤ t.notifying := by
  unfold sendChunk at h
  split at h <;> cases h
  simp

theorem looks_waitForWork (hplaced : Placed s) (h : LooksAgain s) (htop : s.place = .top) :
    LooksAgain (waitForWork s) := by
  have hphase := hplaced.idle (.inl htop)
  unfold waitForWork
  split
  · exact .inl ⟨rfl,hphase⟩
  · split
    · exact .inl ⟨rfl,hphase⟩
    · refine looks_of_emit ?_
      simpa [LooksAgain,Ended,htop,hphase] using h

theorem Leaving.takes (h : Leaving s) {e : Event} (he : DropsAwake s e)
    (ht : Takes api pollDelay s e t) : Leaving t := by
  refine ⟨h.placed.takes ht,fun hconnected => ?_⟩
  cases ht with
  | @call payload hc =>
    rw [(fed_beginCall s payload).connected,hc] at hconnected
    cases hconnected
  | @inject payload =>
    rw [(fed_injectCall s payload).connected] at hconnected
    exact (h.looks hconnected).fed (fed_injectCall s payload) (notifying_injectCall s payload)
  | chunk hsend =>
    rw [(fed_sendChunk hsend).connected] at hconnected
    exact (h.looks hconnected).fed (fed_sendChunk hsend) (notifying_sendChunk hsend)
  | notify => exact .inr (.inl rfl)
  | drop => exact he
  | lock htop =>
    refine looks_waitForWork h.placed (h.looks ?_) htop
    unfold waitForWork at hconnected
    split at hconnected
    · exact hconnected
    · split at hconnected <;> exact hconnected
  | timeout hplace | spurious hplace => exact .inl ⟨rfl,h.placed.idle (.inr ⟨_,hplace⟩)⟩
  | command hplace hphase hf =>
    obtain ⟨-,-,-,hkept,-⟩ := PollIteration.takeCommand_keeps hf
    exact .inl ⟨hplace,hkept.trans hphase⟩
  | disconnected => exact .inr (.inr (.inr (.inl (.inl rfl))))
  | poll _ hc =>
    rw [hc] at hconnected
    cases hconnected
  | emit hplace hphase | finish hplace hphase =>
    have hback := looks_emit (h.looks hconnected) hplace hphase
    exact looks_of_emit hback

end Leaving

section Ending

variable {τ : Type} {api : TcpApi τ} {pollDelay : List (Option (Slot τ)) → ℕ → Option ℕ}
variable {s t : Poller τ}

theorem remaining_waitForWork (hphase : s.forwarder.phase = .drain) (htop : s.place = .top) :
    remaining (waitForWork s) < remaining s ∧ (waitForWork s).connected = s.connected := by
  unfold waitForWork
  split
  · simp [remaining,htop,hphase]
  · split
    · simp [remaining,htop,hphase]
    · simp [remaining,htop]

theorem remaining_lt (h : Placed s) (hconnected : s.connected = false) {e : Event}
    (he : e.isThread = true) (ht : Takes api pollDelay s e t) :
    remaining t < remaining s ∧ t.connected = false := by
  cases ht with
  | call | inject | chunk | drop => cases he
  | notify hsome =>
    refine ⟨?_,hconnected⟩
    cases hplace : s.place with
    | blocked wait =>
      have hphase := h.idle (.inr ⟨wait,hplace⟩)
      simp only [remaining,wake,hplace,hphase,reduceCtorEq,if_false]
      omega
    | top | running | returned =>
      simp only [remaining,wake,hplace]
      omega
  | lock htop =>
    obtain ⟨hlt,hkept⟩ := remaining_waitForWork (h.idle (.inl htop)) htop
    exact ⟨hlt,hkept.trans hconnected⟩
  | timeout hplace | spurious hplace =>
    refine ⟨?_,hconnected⟩
    simp [remaining,hplace,h.idle (.inr ⟨_,hplace⟩)]
  | command hplace hphase hf =>
    obtain ⟨hlen,-,htx,hkept,-⟩ := PollIteration.takeCommand_keeps hf
    refine ⟨?_,hconnected⟩
    simp [remaining,hplace,hphase,hkept,htx]
    omega
  | disconnected hplace hphase =>
    refine ⟨?_,hconnected⟩
    simp [remaining,hplace,hphase]
  | poll _ hc =>
    rw [hc] at hconnected
    cases hconnected
  | emit hplace hphase hf =>
    obtain ⟨hqueue,hlen,hkept⟩ := drainTx_keeps hf
    refine ⟨?_,hconnected⟩
    rcases hkept with hkept | hkept
    · simp [remaining,hplace,hphase,hkept,hqueue]
      omega
    · simp [remaining,hplace,hphase,hkept,hqueue]
      omega
  | finish hplace hphase htx =>
    have hkeeps := finish_keeps api noReplies s.forwarder
    simp only [besidesFinish,Prod.mk.injEq] at hkeeps
    refine ⟨?_,hconnected⟩
    simp [remaining,hplace,hphase,hkeeps.2.1,hkeeps.2.2.2.1]

variable (api pollDelay) in
theorem step_of_not_ended (h : Leaving s) (hconnected : s.connected = false) (hs : ¬ Ended s) :
    ∃ e, e.isThread = true ∧ (step api pollDelay s e).isSome := by
  simp only [Ended,not_or] at hs
  cases hplace : s.place with
  | returned => exact absurd hplace hs.1
  | top => exact ⟨.lock,rfl,by simp [step,hplace]⟩
  | blocked wait =>
    cases wait with
    | some wait => exact ⟨.timeout,rfl,by simp [step,hplace]⟩
    | none =>
      -- nobody else can wake it, so a notification is on its way
      have hnotifying : s.notifying ≠ 0 := fun hzero =>
        h.not_stranded ⟨hplace,hconnected,(h.placed.waits _ hplace).2,hzero⟩
      exact ⟨.notify,rfl,by simp [step,hnotifying]⟩
  | running =>
    cases hphase : s.forwarder.phase with
    | stopped => exact absurd hphase hs.2
    | drain =>
      by_cases hqueue : s.forwarder.queue = []
      · exact ⟨.disconnected,rfl,by simp [step,hplace,hphase,hqueue,hconnected]⟩
      · have hone := PollIteration.attempt_command api hphase hqueue
        exact ⟨.command,rfl,by simp [step,SmoltcpForwarder.step,hplace,hphase,hone]⟩
    | emit =>
      cases htx : s.forwarder.tx with
      | nil => exact ⟨.finish,rfl,by simp [step,SmoltcpForwarder.step,hplace,hphase,htx]⟩
      | cons packet rest =>
        have hsome : (drainTx s.forwarder).isSome := by
          simp only [drainTx,htx]
          split
          · rfl
          · split <;> rfl
        exact ⟨.emit,rfl,by simp [step,SmoltcpForwarder.step,hplace,hphase,hsome]⟩

theorem Leaving.endsAlone (h : Leaving s) : EndsAlone api pollDelay s := by
  intro hconnected
  refine ⟨remaining s,fun es t hes ht => ?_⟩
  have hrun : es.length+remaining t ≤ remaining s ∧ Leaving t ∧ t.connected = false := by
    induction es generalizing s with
    | nil =>
      cases ht
      exact ⟨by simp,h,hconnected⟩
    | cons e es ih =>
      obtain ⟨u,hu,ht⟩ := exec_cons.mp ht
      have htakes := takes_of_step hu
      obtain ⟨hlt,hgone⟩ := remaining_lt h.placed hconnected (hes e (by simp)) htakes
      have hdrops : DropsAwake s e := by
        cases e with
        | drop => exact absurd (hes .drop (by simp)) (by simp [Event.isThread])
        | _ => trivial
      obtain ⟨hle,hrest⟩ := ih (h.takes hdrops htakes) hgone (fun f hf => hes f (by simp [hf])) ht
      exact ⟨by simp only [List.length_cons]; omega,hrest⟩
  obtain ⟨hle,hleaving,hgone⟩ := hrun
  refine ⟨by omega,fun hstuck => ?_⟩
  by_contra hnot
  obtain ⟨e,he,hsome⟩ := step_of_not_ended api pollDelay hleaving hgone hnot
  rw [hstuck e he] at hsome
  cases hsome

variable (api pollDelay) in
/-- In every run in which the forwarder is dropped while the thread will look at the channel
again, the thread is never stranded, and left to itself it ends. -/
theorem thread_ends_after_drop {es : List Event}
    (hes : Meets (step api pollDelay) DropsAwake (spawn τ) es) :
    Along (step api pollDelay) (fun s => ¬ Stranded s ∧ EndsAlone api pollDelay s) (spawn τ) es :=
  along_of_meets (fun _ h => ⟨h.not_stranded,h.endsAlone⟩)
    (fun _ _ _ h he ht => h.takes he (takes_of_step ht)) leaving_spawn hes

end Ending

section Runs

/-- The forwarder is dropped while the thread takes commands, and the thread returns. -/
def promptRun : List Event := [.lock,.drop,.disconnected]

/-- A delay is due as soon as there is a socket. -/
def idleDelay (sockets : List (Option (Slot TcpStack.ToySocket))) (_ : ℕ) : Option ℕ :=
  if sockets.any Option.isSome then some 1000 else none

theorem thread_ends_after_prompt_drop :
    Along (step TcpStack.toyTcp idleDelay)
      (fun s => ¬ Stranded s ∧ EndsAlone TcpStack.toyTcp idleDelay s) (spawn _) promptRun :=
  thread_ends_after_drop TcpStack.toyTcp idleDelay (by decide +kernel)

/-- A session that never sends anything: after its first iteration the thread sleeps, and
then the forwarder is dropped. -/
def idleRun : List Event := [.lock,.poll 0 1,.finish,.lock,.drop]

theorem idle_thread_stranded :
    ∃ s, exec (step TcpStack.toyTcp idleDelay) (spawn _) idleRun = some s ∧ Stranded s :=
  ⟨_,rfl,by decide +kernel⟩

end Runs

end Bonded.PollShutdown
