import Bonded.PollIteration
import Bonded.PollService

/-! Whether the poll thread can sleep on work. Every party queues its work before it sets the
flag, and the thread clears the flag before it looks at the queues, so commands and chunks
are not lost. The time to wait, however, is computed before the connections are served: bytes
that serving writes to a socket, or leaves in it, do not count for the next wait. -/
namespace Bonded.PollWakeup

open Ipv4 Machine PollService PollThread
open SmoltcpForwarder hiding Event step

section Work

variable {τ : Type} (api : TcpApi τ)

/-- A party has queued work, or is about to, and has still to notify. -/
def Announced (s : Poller τ) : Prop :=
  s.notifying ≠ 0 ∨ ∃ payload ∈ s.callers, (injected payload).isSome

/-- A socket could take bytes of its bridge. -/
def CanAccept (f : Forwarder τ) : Prop :=
  ∃ handle x, connAt f handle = some x ∧ api.canSend x.2 = true ∧ backlog x.1 ≠ 0

/-- An active socket has bytes that were not read. -/
def Readable (f : Forwarder τ) : Prop :=
  ∃ handle x, connAt f handle = some x ∧ api.canRecv x.2 = true

def WorkAvailable (s : Poller τ) : Prop :=
  s.forwarder.queue ≠ [] ∨ CanAccept api s.forwarder ∨ s.unpolled ≠ [] ∨ Readable api s.forwarder

/-- The thread does not wait without a timeout, unflagged and with nobody about to notify
it, while there is work. -/
def NoLostWakeup (s : Poller τ) : Prop :=
  s.place = .blocked none → s.work = false → ¬ Announced s → ¬ WorkAvailable api s

/-- Serving writes to no socket and empties what it reads: no socket that can send has bytes
of its bridge waiting, and one read takes all that a socket has received. -/
def Settled (f : Forwarder τ) : Prop :=
  (∀ handle ∈ handles f, ∀ x ∈ connAt f handle, api.canSend x.2 = false ∨ backlog x.1 = 0) ∧
    ∀ slot ∈ f.sockets, ∀ x ∈ slot, api.canRecv (receive api x.sock).2 = false

/-- The flag is set or a timeout is due when the connections are served, or serving them
makes no work. -/
def ServesSettled (s : Poller τ) : Event → Prop
  | .finish => s.work = true ∨ s.nextPollWait ≠ none ∨ Settled api s.forwarder
  | _ => True

instance (f : Forwarder τ) : Decidable (Settled api f) := by
  unfold Settled
  infer_instance

instance (s : Poller τ) (e : Event) : Decidable (ServesSettled api s e) :=
  decidable_of_iff
    (e = .finish → s.work = true ∨ s.nextPollWait ≠ none ∨ Settled api s.forwarder)
    (by cases e <;> simp [ServesSettled])

end Work

section Finish

variable {τ : Type} {api : TcpApi τ}

theorem connAt_congr {f g : Forwarder τ} (hactive : g.active = f.active)
    (hsockets : g.sockets = f.sockets) (handle : ℕ) : connAt g handle = connAt f handle := by
  rw [connAt,connAt,hactive,hsockets]

theorem not_canAccept_finish (laws : BufferLaws api) (f : Forwarder τ) :
    ¬ CanAccept api (finish api noReplies f) := by
  rintro ⟨handle,x,hx,hsend,hbacklog⟩
  obtain ⟨y,-,rfl⟩ := connAt_finish hx
  exact hbacklog (serve_exhausts laws y hsend)

theorem not_readable_finish (laws : BufferLaws api) {f : Forwarder τ} (h : Settled api f) :
    ¬ Readable api (finish api noReplies f) := by
  rintro ⟨handle,x,hx,hrecv⟩
  obtain ⟨y,hy,rfl⟩ := connAt_finish hx
  obtain ⟨-,slot,hslot,hsock⟩ := connAt_promote hy
  have hmem : some slot ∈ f.sockets := by
    rw [← hslot,socketAt,List.getD_eq_getElem?_getD]
    rw [socketAt,List.getD_eq_getElem?_getD] at hslot
    cases hget : f.sockets[handle]? with
    | none => simp [hget] at hslot
    | some o => exact List.mem_of_getElem? hget
  have hempty := h.2 _ hmem slot rfl
  rw [serve_canRecv laws,← hsock,hempty] at hrecv
  cases hrecv

theorem written_of_settled (laws : BufferLaws api) {f : Forwarder τ} (h : Settled api f) :
    written api f = [] := by
  rw [written,List.filter_eq_nil_iff]
  intro handle _
  rw [connAt_service]
  cases hx : connAt (promote api f) handle with
  | none => simp
  | some x =>
    obtain ⟨hold,-⟩ := connAt_promote hx
    have hidle : api.canSend x.2 = false ∨ backlog x.1 = 0 := by
      rcases hold with hold | hzero
      · have hget := (connAt_some.mp hold).1
        exact h.1 handle (List.mem_map.mpr ⟨_,(Table.mem_toList _ _ _).mpr hget,rfl⟩) x hold
      · exact .inr hzero
    rcases hidle with hsend | hzero
    · simp [serve_of_not_canSend laws hsend]
    · simp [hzero]

end Finish

section Feeding

variable {τ : Type} {s t : Poller τ}

theorem announced_beginCall {payload : List UInt8} (h : Announced s) :
    Announced (beginCall s payload) := by
  rcases h with hnotifying | ⟨p,hp,hinjected⟩
  · exact .inl hnotifying
  · exact .inr ⟨p,List.mem_append_left _ hp,hinjected⟩

theorem queue_beginCall (s : Poller τ) (payload : List UInt8) :
    (beginCall s payload).forwarder.queue = s.forwarder.queue ∨
      Announced (beginCall s payload) := by
  simp only [beginCall,beginIngest]
  split
  · exact .inl rfl
  · split
    · simp only [announceSyn]
      split
      · next t hparse =>
        refine .inr (.inr ⟨payload,?_,FlowIsolation.injected_of_parseTcpHeader hparse⟩)
        simp
      · exact .inl rfl
    · exact .inl rfl

theorem injectCall_cases (s : Poller τ) (payload : List UInt8) :
    (injectCall s payload).forwarder = s.forwarder ∧
        (Announced s → Announced (injectCall s payload)) ∨
      Announced (injectCall s payload) := by
  cases hinjected : injected payload with
  | none =>
    refine .inl ⟨by simp only [injectCall,hinjected],fun h => ?_⟩
    simp only [injectCall,hinjected]
    refine h.imp_right fun ⟨p,hp,hsome⟩ => ⟨p,?_,hsome⟩
    have hne : p ≠ payload := by
      rintro rfl
      simp [hinjected] at hsome
    exact (List.mem_erase_of_ne hne).mpr hp
  | some x =>
    refine .inr (.inl ?_)
    simp [injectCall,hinjected]

theorem sendChunk_cases {handle : ℕ} {bytes : List UInt8}
    (h : sendChunk s handle bytes = some t) : Announced t ∧ ∀ api : TcpApi τ,
      Readable api t.forwarder → Readable api s.forwarder := by
  unfold sendChunk at h
  split at h
  · cases h
  · next conn hconn =>
    cases h
    refine ⟨.inl (by simp),?_⟩
    rintro api ⟨k,x,hx,hrecv⟩
    obtain ⟨hget,slot,hslot,hsock⟩ := connAt_some.mp hx
    simp only [Table.get_set] at hget
    split at hget
    · next hk =>
      subst hk
      exact ⟨k,(conn,x.2),connAt_some.mpr ⟨hconn,slot,hslot,hsock⟩,hrecv⟩
    · exact ⟨k,x,connAt_some.mpr ⟨hget,slot,hslot,hsock⟩,hrecv⟩

end Feeding

section Invariant

variable {τ : Type} {api : TcpApi τ} {pollDelay : List (Option (Slot τ)) → ℕ → Option ℕ}
variable {s t : Poller τ}

variable (api) in
/-- Whatever is queued will be noticed: somebody has still to notify, the flag is set, or the
thread has still to look. Output that serving made is covered by the flag or a timeout. -/
structure Awake (s : Poller τ) : Prop where
  placed : Placed s
  fresh : s.forwarder.phase = .emit → s.unpolled = []
  commands : s.forwarder.queue ≠ [] → Announced s ∨ s.work = true ∨ s.place = .returned ∨
    s.place = .running ∧ s.forwarder.phase = .drain
  chunks : CanAccept api s.forwarder → Announced s ∨ s.work = true ∨ s.place = .returned ∨
    s.place = .running
  output : s.place = .top ∨ (∃ wait, s.place = .blocked wait) →
    s.unpolled ≠ [] ∨ Readable api s.forwarder → s.work = true ∨ s.nextPollWait ≠ none

theorem awake_spawn : Awake api (spawn τ) := by
  refine ⟨placed_spawn,fun _ => rfl,fun h => absurd rfl h,?_,fun _ _ => .inr (by simp [spawn])⟩
  rintro ⟨handle,x,hx,-⟩
  cases hx

theorem Awake.noLostWakeup (h : Awake api s) : NoLostWakeup api s := by
  intro hplace hwork hquiet hsome
  have hwait := (h.placed.waits _ hplace).1
  have hidle : s.place = .top ∨ (∃ wait, s.place = .blocked wait) := .inr ⟨none,hplace⟩
  rcases hsome with hqueue | haccept | houtput
  · rcases h.commands hqueue with hann | hflag | hret | ⟨hrun,-⟩
    · exact hquiet hann
    · simp [hwork] at hflag
    · simp [hplace] at hret
    · simp [hplace] at hrun
  · rcases h.chunks haccept with hann | hflag | hret | hrun
    · exact hquiet hann
    · simp [hwork] at hflag
    · simp [hplace] at hret
    · simp [hplace] at hrun
  · rcases h.output hidle houtput with hflag | hsome
    · simp [hwork] at hflag
    · exact hsome hwait

theorem Awake.fed (h : Awake api s) (hf : Fed s t) (hann : Announced s → Announced t)
    (hqueue : t.forwarder.queue ≠ [] → s.forwarder.queue ≠ [] ∨ Announced t)
    (hchunks : CanAccept api t.forwarder → CanAccept api s.forwarder ∨ Announced t)
    (hread : Readable api t.forwarder → Readable api s.forwarder) : Awake api t := by
  refine ⟨h.placed.fed hf,?_,fun hne => ?_,fun hacc => ?_,fun hidle hout => ?_⟩
  · rw [hf.phase,hf.unpolled]
    exact h.fresh
  · rw [hf.work,hf.place,hf.phase]
    rcases hqueue hne with hold | hnew
    · exact (h.commands hold).imp_left hann
    · exact .inl hnew
  · rw [hf.work,hf.place]
    rcases hchunks hacc with hold | hnew
    · exact (h.chunks hold).imp_left hann
    · exact .inl hnew
  · rw [hf.work,hf.nextPollWait]
    rw [hf.place] at hidle
    rw [hf.unpolled] at hout
    exact h.output hidle (hout.imp_right hread)

theorem awake_of_work (hplaced : Placed t) (hfresh : t.forwarder.phase = .emit → t.unpolled = [])
    (hwork : t.work = true) : Awake api t :=
  ⟨hplaced,hfresh,fun _ => .inr (.inl hwork),fun _ => .inr (.inl hwork),fun _ _ => .inl hwork⟩

theorem awake_of_running (hplace : t.place = .running) (hphase : t.forwarder.phase = .drain) :
    Awake api t := by
  refine ⟨placed_of_inside (.inl hplace),fun h => ?_,fun _ => ?_,fun _ => ?_,fun hidle => ?_⟩
  · rw [hphase] at h
    cases h
  · exact .inr (.inr (.inr ⟨hplace,hphase⟩))
  · exact .inr (.inr (.inr hplace))
  · rw [hplace] at hidle
    simp at hidle

theorem Awake.waitForWork (h : Awake api s) (htop : s.place = .top) :
    Awake api (waitForWork s) := by
  have hphase := h.placed.idle (.inl htop)
  unfold PollThread.waitForWork
  split
  · exact awake_of_running rfl hphase
  · next hwork =>
    split
    · exact awake_of_running rfl hphase
    · refine ⟨?_,h.fresh,fun hne => ?_,fun hacc => ?_,fun _ => h.output (.inl htop)⟩
      · refine ⟨fun _ => hphase,fun wait hwait => ?_⟩
        cases hwait
        exact ⟨rfl,by simpa using hwork⟩
      · rcases h.commands hne with hann | hflag | hret | ⟨hrun,-⟩
        · exact .inl hann
        · exact .inr (.inl hflag)
        · simp [htop] at hret
        · simp [htop] at hrun
      · rcases h.chunks hacc with hann | hflag | hret | hrun
        · exact .inl hann
        · exact .inr (.inl hflag)
        · simp [htop] at hret
        · simp [htop] at hrun

theorem awake_of_emit (hplaced : Placed t) (hplace : t.place = .running)
    (hfresh : t.forwarder.phase = .emit → t.unpolled = [])
    (hqueue : t.forwarder.queue ≠ [] → Announced t ∨ t.work = true) : Awake api t := by
  refine ⟨hplaced,hfresh,fun hne => ?_,fun _ => .inr (.inr (.inr hplace)),fun hidle => ?_⟩
  · rcases hqueue hne with hann | hflag
    · exact .inl hann
    · exact .inr (.inl hflag)
  · rw [hplace] at hidle
    simp at hidle

theorem Awake.beginCall (h : Awake api s) (payload : List UInt8) :
    Awake api (beginCall s payload) := by
  obtain ⟨-,-,hactive,hsockets⟩ := beginIngest_keeps s.forwarder payload
  have hconn : ∀ k, connAt (PollThread.beginCall s payload).forwarder k = connAt s.forwarder k :=
    connAt_congr hactive hsockets
  refine h.fed (fed_beginCall s payload) announced_beginCall (fun hne => ?_) ?_ ?_
  · rcases queue_beginCall s payload with heq | hann
    · exact .inl (by rwa [heq] at hne)
    · exact .inr hann
  · simp only [CanAccept,hconn]
    exact .inl
  · simp only [Readable,hconn]
    exact id

theorem Awake.injectCall (h : Awake api s) (payload : List UInt8) :
    Awake api (injectCall s payload) := by
  rcases injectCall_cases s payload with ⟨hsame,hann⟩ | hann
  · refine h.fed (fed_injectCall s payload) hann ?_ ?_ ?_ <;> rw [hsame]
    · exact .inl
    · exact .inl
    · exact id
  · obtain ⟨-,-,hactive,hsockets⟩ := endIngest_keeps {s.forwarder with caller := some payload}
    have hconn : ∀ k, connAt (PollThread.injectCall s payload).forwarder k =
        connAt s.forwarder k := by
      unfold PollThread.injectCall
      split
      · exact fun k => rfl
      · exact connAt_congr hactive hsockets
    refine h.fed (fed_injectCall s payload) (fun _ => hann) (fun _ => .inr hann)
      (fun _ => .inr hann) ?_
    simp only [Readable,hconn]
    exact id

/-- In the part of the body after the commands, a command that is queued is announced. -/
theorem Awake.commands_emit (h : Awake api s) (hplace : s.place = .running)
    (hphase : s.forwarder.phase = .emit) (hqueue : s.forwarder.queue ≠ []) :
    Announced s ∨ s.work = true := by
  rcases h.commands hqueue with hann | hflag | hret | ⟨-,hdrain⟩
  · exact .inl hann
  · exact .inr hflag
  · simp [hplace] at hret
  · simp [hphase] at hdrain

theorem Awake.finish (laws : BufferLaws api) (h : Awake api s) (hplace : s.place = .running)
    (hphase : s.forwarder.phase = .emit)
    (hserves : s.work = true ∨ s.nextPollWait ≠ none ∨ Settled api s.forwarder) :
    Awake api {s with
      forwarder := SmoltcpForwarder.finish api noReplies s.forwarder
      place := .top
      unpolled := s.unpolled++written api s.forwarder} := by
  refine ⟨⟨fun _ => rfl,fun wait hwait => by cases hwait⟩,fun hemit => (by cases hemit),
    fun hne => ?_,fun hacc => absurd hacc (not_canAccept_finish laws _),fun _ hout => ?_⟩
  · have hkeeps := finish_keeps api noReplies s.forwarder
    simp only [besidesFinish,Prod.mk.injEq] at hkeeps
    rw [hkeeps.2.1] at hne
    rcases h.commands_emit hplace hphase hne with hann | hflag
    · exact .inl hann
    · exact .inr (.inl hflag)
  · rcases hserves with hflag | hwait | hsettled
    · exact .inl hflag
    · exact .inr hwait
    · rw [h.fresh hphase,written_of_settled laws hsettled] at hout
      exact (hout.elim (absurd rfl) fun hread => absurd hread (not_readable_finish laws hsettled))

theorem Awake.takes (laws : BufferLaws api) (h : Awake api s) {e : Event}
    (he : ServesSettled api s e) (ht : Takes api pollDelay s e t) : Awake api t := by
  have hplaced := h.placed.takes ht
  cases ht with
  | call => exact h.beginCall _
  | inject => exact h.injectCall _
  | chunk hsend =>
    obtain ⟨hann,hread⟩ := sendChunk_cases hsend
    exact h.fed (fed_sendChunk hsend) (fun _ => hann) (fun _ => .inr hann) (fun _ => .inr hann)
      (hread api)
  | notify => exact awake_of_work hplaced h.fresh rfl
  | drop => exact ⟨hplaced,h.fresh,h.commands,h.chunks,h.output⟩
  | lock htop => exact h.waitForWork htop
  | timeout hplace => exact awake_of_running rfl (h.placed.idle (.inr ⟨_,hplace⟩))
  | spurious hplace => exact awake_of_running rfl (h.placed.idle (.inr ⟨_,hplace⟩))
  | command hplace hphase hf =>
    obtain ⟨-,-,-,hkept,-⟩ := PollIteration.takeCommand_keeps hf
    exact awake_of_running hplace (hkept.trans hphase)
  | disconnected hplace hphase =>
    refine ⟨hplaced,h.fresh,fun _ => .inr (.inr (.inl rfl)),fun _ => .inr (.inr (.inl rfl)),?_⟩
    rintro (hidle | ⟨wait,hidle⟩) <;> cases hidle
  | @poll now rounds f hplace hconnected hphase hqueue hf =>
    have hkeeps := (pollStack_keeps api now rounds s.forwarder).2
    simp only [besidesStack,Prod.mk.injEq] at hkeeps
    refine awake_of_emit hplaced hplace (fun _ => rfl) fun hne => ?_
    rw [hf] at hne
    exact absurd (hkeeps.2.1.trans hqueue) hne
  | @emit f hplace hphase hf =>
    refine awake_of_emit hplaced hplace (fun _ => h.fresh hphase) fun hne => ?_
    rw [(drainTx_keeps hf).1] at hne
    exact h.commands_emit hplace hphase hne
  | finish hplace hphase htx => exact h.finish laws hplace hphase he

/-- In every interleaving of the thread with its callers and bridges, it never sleeps on
work, provided that whenever it serves the connections the flag is set, a timeout is due, or
serving makes no work. -/
theorem no_lost_wakeup_when_settled (laws : BufferLaws api) {es : List Event}
    (hes : Meets (step api pollDelay) (ServesSettled api) (spawn τ) es) :
    Along (step api pollDelay) (NoLostWakeup api) (spawn τ) es :=
  along_of_meets (fun _ => Awake.noLostWakeup)
    (fun _ _ _ h he ht => h.takes laws he (takes_of_step ht)) awake_spawn hes

end Invariant

section BufferedStack

open TcpStack

/-- The small stack with a buffer of bytes to send, which a round of sending empties. -/
def bufferedTcp : TcpApi (ToySocket × List UInt8) where
  listen port := (toyTcp.listen port,[])
  state sock := sock.1.state
  localPort sock := sock.1.port
  remote sock := sock.1.remote
  wellFormed _ := true
  process sock now bytes := (((toyTcp.process sock.1 now bytes).1,sock.2),[])
  dispatch sock now := ((sock.1,[]),(toyTcp.dispatch sock.1 now).2++
    match sock.2, sock.1.remote with
    | x::rest, some (ip,port) => [tcpPacket smoltcpIp ip sock.1.port port 16 (x::rest)]
    | _, _ => [])
  refuse _ := []
  canRecv sock := toyTcp.canRecv sock.1
  recv sock := ((toyTcp.recv sock.1).1,((toyTcp.recv sock.1).2,sock.2))
  canSend sock := toyTcp.canSend sock.1
  sendSlice sock bytes := (some bytes.length,(sock.1,sock.2++bytes))

/-- A delay is due for bytes to send and for an answer to a SYN, which is sent again. -/
def bufferedDelay (sockets : List (Option (Slot (ToySocket × List UInt8)))) (_ : ℕ) : Option ℕ :=
  if sockets.any fun slot => slot.any fun x => x.sock.2 ≠ [] ∨ x.sock.1.state = .synReceived
  then some 1000 else none

theorem bufferedTcp_laws : BufferLaws bufferedTcp where
  recv_canSend _ := rfl
  sendSlice_canRecv _ _ := rfl
  sendSlice_takes _ bytes _ hbytes := by
    cases bytes with
    | nil => exact absurd rfl hbytes
    | cons x rest => exact ⟨rest.length,rfl⟩

/-- A client opens a connection, and the thread promotes it. -/
def openRun : List Event :=
  [.call (syn flowA),.inject (syn flowA),.notify,.lock,.command,.command,.poll 0 1,.emit,.finish,
    .call (acked flowA []),.inject (acked flowA []),.notify,.lock,.command,.poll 1 1,.finish]

/-- The thread sleeps when a chunk arrives. It leaves the flag set when it wakes up, and so
goes through its loop twice. -/
def sleepingRun : List Event :=
  openRun++[.lock,.chunk 0 [104,105],.notify,.poll 2 1,.finish,.lock,.poll 3 1,.emit,.finish,.lock]

theorem no_lost_wakeup_for_sleeper :
    Along (step bufferedTcp bufferedDelay) (NoLostWakeup bufferedTcp) (spawn _) sleepingRun :=
  no_lost_wakeup_when_settled bufferedTcp_laws (by decide +kernel)

/-- The chunk arrives while the thread is on its way to the lock. -/
def passingRun : List Event :=
  openRun++[.chunk 0 [104,105],.notify,.lock,.poll 2 1,.finish,.lock]

theorem passingRun_ends :
    (exec (step bufferedTcp bufferedDelay) (spawn _) passingRun).map
      (fun s => ((s.place,s.work,s.notifying),s.callers,s.unpolled)) =
        some ((.blocked none,false,0),[],[0]) := by
  decide +kernel

/-- The flag is cleared before the stack runs, and the wait is computed before the chunk is
written: the thread sleeps with two bytes in the socket's send buffer. -/
theorem sleeps_on_unsent_bytes :
    ∃ s, exec (step bufferedTcp bufferedDelay) (spawn _) passingRun = some s ∧
      s.place = .blocked none ∧ s.work = false ∧ s.unpolled = [0] ∧
      ¬ NoLostWakeup bufferedTcp s := by
  obtain ⟨s,hs,hends⟩ := Option.map_eq_some_iff.mp passingRun_ends
  simp only [Prod.mk.injEq] at hends
  obtain ⟨⟨hplace,hwork,hnotifying⟩,hcallers,hunpolled⟩ := hends
  refine ⟨s,hs,hplace,hwork,hunpolled,fun h => ?_⟩
  refine h hplace hwork ?_ (.inr (.inr (.inl (by simp [hunpolled]))))
  simp [Announced,hnotifying,hcallers]

end BufferedStack

end Bonded.PollWakeup
