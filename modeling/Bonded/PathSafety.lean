import Bonded.PacketLoop

/-! The path lists of the client's loops over whole runs: which path a loop may drop, in what
order the others stay, and that the active index always points at one of them. -/
namespace Bonded.PathSafety

open Machine PacketLoop

/-- A send or a receive on the active path failed. -/
def linuxPathError : LinuxEvent → Bool
  | .tunRead packet sendOk => packet.length ≠ 0 ∧ sendOk = false
  | .recvFailed => true
  | _ => false

/-- The heartbeat is a send too. -/
def workerPathError : WorkerEvent → Bool
  | .outbound packet cancelled sendOk => ¬ (packet = [] ∧ cancelled = true) ∧ sendOk = false
  | .recvFailed => true
  | .heartbeat sendOk => ¬ sendOk
  | _ => false

def linuxAdded : LinuxEvent → Option ℕ
  | .peerTransport path => some path
  | _ => none

def workerAdded : WorkerEvent → Option ℕ
  | .peerTransport path => some path
  | _ => none

/-- All that an event can do to the paths: nothing, append one, or drop the active one. -/
inductive Moves (failed : Bool) (added : Option ℕ) (s t : LoopState) : Prop
  | keeps (hadded : added = none) (htransports : t.transports = s.transports)
      (hactive : t.activeIndex = s.activeIndex) (hpanic : t.ended ≠ some .panicked)
      (hended : failed = true → t.ended ≠ none → s.transports.length = 1)
  | adds (path : ℕ) (hadded : added = some path) (hfailed : failed = false)
      (htransports : t.transports = s.transports++[path])
      (hactive : t.activeIndex = s.activeIndex) (hended : t.ended = none)
  | drops (hadded : added = none) (hfailed : failed = true) (hmany : s.transports.length ≠ 1)
      (htransports : t.transports = s.transports.eraseIdx s.activeIndex)
      (hactive : t.activeIndex =
        if s.activeIndex ≥ t.transports.length then 0 else s.activeIndex)
      (hended : t.ended = none)

section Moves

variable {failed : Bool} {added : Option ℕ} {s t : LoopState}

theorem moves_same (hadded : added = none) (hfailed : failed = false)
    (htransports : t.transports = s.transports) (hactive : t.activeIndex = s.activeIndex)
    (hpanic : t.ended ≠ some .panicked) : Moves failed added s t := by
  refine .keeps hadded htransports hactive hpanic ?_
  intro h
  simp [hfailed] at h

theorem moves_failover (hrun : s.ended = none) (hadded : added = none) (hfailed : failed = true) :
    Moves failed added s (failover s) := by
  by_cases hlen : s.transports.length = 1
  · refine .keeps hadded ?_ ?_ ?_ fun _ _ => hlen
    all_goals simp [failover,hlen]
  · refine .drops hadded hfailed hlen ?_ ?_ ?_
    all_goals simp [failover,hlen,hrun]

theorem moves_sendOutbound (hready : Ready s) (hrun : s.ended = none) (hadded : added = none)
    {packet : List UInt8} {sendOk : Bool} (hfailed : failed = !sendOk) :
    Moves failed added s (sendOutbound s packet sendOk) := by
  have hpath := List.getElem?_eq_getElem (l := s.transports) hready
  simp only [sendOutbound,hpath]
  cases sendOk with
  | true =>
    simp only [if_true]
    exact moves_same hadded hfailed rfl rfl (by simp [hrun])
  | false =>
    -- the packet's number and the log are no part of what the failover looks at
    simp only [Bool.false_eq_true,if_false]
    have h := moves_failover (s := {s with
      session := (Session.createOutboundFrame s.session packet 0).2
      reads := s.reads++[⟨packet,s.transports.length,false⟩]}) hrun hadded hfailed
    cases h with
    | keeps h1 h2 h3 h4 h5 => exact .keeps h1 h2 h3 h4 h5
    | adds path h1 h2 h3 h4 h5 => exact .adds path h1 h2 h3 h4 h5
    | drops h1 h2 h3 h4 h5 h6 => exact .drops h1 h2 h3 h4 h5 h6

theorem Moves.ready (h : Moves failed added s t) (hready : Ready s) :
    Ready t ∧ t.ended ≠ some .panicked := by
  unfold Ready at hready ⊢
  cases h with
  | keeps _ htransports hactive hpanic _ =>
    rw [htransports,hactive]
    exact ⟨hready,hpanic⟩
  | adds path _ _ htransports hactive hended =>
    rw [htransports,hactive,List.length_append]
    exact ⟨Nat.lt_of_lt_of_le hready (Nat.le_add_right _ _),by simp [hended]⟩
  | drops _ _ hmany htransports hactive hended =>
    have hlen : t.transports.length = s.transports.length-1 := by
      rw [htransports,List.length_eraseIdx_of_lt hready]
    refine ⟨?_,by simp [hended]⟩
    rw [hactive]
    split
    · omega
    · omega

theorem Moves.sublist (h : Moves failed added s t) :
    t.transports.Sublist (s.transports++added.toList) := by
  cases h with
  | keeps hadded htransports => simp [hadded,htransports]
  | adds path hadded _ htransports => simp [hadded,htransports]
  | drops hadded _ _ htransports =>
    rw [htransports,hadded,Option.toList_none,List.append_nil]
    exact List.eraseIdx_sublist _ _

end Moves

structure PathLoop (ε : Type) where
  step : LoopState → ε → Option LoopState
  pathError : ε → Bool
  added : ε → Option ℕ
  moves : ∀ s e t, Ready s → step s e = some t → Moves (pathError e) (added e) s t

theorem runLinuxPacketLoop_moves (s : LoopState) (e : LinuxEvent) (t : LoopState) (hready : Ready s)
    (h : runLinuxPacketLoop s e = some t) : Moves (linuxPathError e) (linuxAdded e) s t := by
  have hrun := linuxLoop.running s e t h
  simp only [runLinuxPacketLoop,hrun,Option.isSome_none,Bool.false_eq_true,if_false,
    if_neg (Nat.not_le.mpr hready)] at h
  cases e with
  | tunRead packet sendOk =>
    by_cases hempty : packet.length = 0
    · simp only [hempty,if_true,Option.some.injEq] at h
      subst h
      exact moves_same rfl (by simp [linuxPathError,hempty]) rfl rfl (by simp [hrun])
    · simp only [hempty,if_false,Option.some.injEq] at h
      subst h
      exact moves_sendOutbound hready hrun rfl (by cases sendOk <;> simp [linuxPathError,hempty])
  | tunReadFailed =>
    cases h
    exact moves_same rfl rfl rfl rfl (by simp)
  | peerTransport path =>
    cases h
    exact .adds path rfl rfl rfl rfl hrun
  | received frame writes =>
    simp only at h
    split at h
    · cases h
      exact moves_same rfl rfl rfl rfl (by simp)
    · split at h
      · cases h
        exact moves_same rfl rfl rfl rfl (by simp)
      · cases h
        exact moves_same rfl rfl rfl rfl (by simp)
  | recvFailed =>
    cases h
    exact moves_failover hrun rfl rfl

theorem runWorker_moves (s : LoopState) (e : WorkerEvent) (t : LoopState) (hready : Ready s)
    (h : runWorker s e = some t) : Moves (workerPathError e) (workerAdded e) s t := by
  have hrun := workerLoop.running s e t h
  simp only [runWorker,hrun,Option.isSome_none,Bool.false_eq_true,if_false,
    if_neg (Nat.not_le.mpr hready)] at h
  cases e with
  | cancelled | outboundClosed =>
    cases h
    exact moves_same rfl rfl rfl rfl (by simp)
  | peerTransport path =>
    cases h
    exact .adds path rfl rfl rfl rfl hrun
  | outbound packet cancelled sendOk =>
    by_cases hstop : packet = [] ∧ cancelled = true
    · simp only [hstop,and_self,if_true,Option.some.injEq] at h
      subst h
      exact moves_same rfl (by simp [workerPathError,hstop]) rfl rfl (by simp)
    · simp only [hstop,if_false,Option.some.injEq] at h
      subst h
      refine moves_sendOutbound hready hrun rfl ?_
      simp only [workerPathError,hstop,not_false_eq_true,true_and]
      cases sendOk <;> rfl
  | received frame drained =>
    simp only at h
    split at h <;> cases h <;>
      exact moves_same rfl rfl rfl rfl (by simp [hrun])
  | recvFailed =>
    cases h
    exact moves_failover hrun rfl rfl
  | heartbeat sendOk =>
    -- a heartbeat that cannot be sent is only logged
    cases sendOk with
    | true =>
      simp only [if_true,Option.some.injEq] at h
      subst h
      exact moves_same rfl rfl rfl rfl (by simp)
    | false =>
      simp only [Bool.false_eq_true,if_false,Option.some.injEq] at h
      subst h
      exact .keeps rfl rfl rfl (by simp [hrun]) fun _ hended => absurd hrun hended

def linuxPaths : PathLoop LinuxEvent :=
  ⟨runLinuxPacketLoop,linuxPathError,linuxAdded,runLinuxPacketLoop_moves⟩

def workerPaths : PathLoop WorkerEvent :=
  ⟨runWorker,workerPathError,workerAdded,runWorker_moves⟩

/-- The list is not empty and its active position exists; in particular no access to it has
been out of range. -/
def Indexed (s : LoopState) : Prop :=
  s.transports ≠ [] ∧ Ready s ∧ s.ended ≠ some .panicked

/-- A step removes at most the active path, and only when a send or a receive on it failed;
such a failure ends the loop only if no other path is left. -/
def DropsOnlyFailed {ε : Type} (loop : PathLoop ε) (s : LoopState) (e : ε) (t : LoopState) : Prop :=
  (s.transports <+: t.transports ∨
    loop.pathError e = true ∧ t.transports = s.transports.eraseIdx s.activeIndex) ∧
  (loop.pathError e = true → t.ended ≠ none → s.transports.length = 1)

/-- The paths at the end are some of the first ones and of those added, in their order. -/
def KeepsOrder {ε : Type} (loop : PathLoop ε) (transports : List ℕ) (events : List ε) : Prop :=
  ∀ done t, done <+: events → exec loop.step (initial transports) done = some t →
    t.transports.Sublist (transports++done.filterMap loop.added)

section Runs

variable {ε : Type} (loop : PathLoop ε) {transports : List ℕ}

theorem ready_initial (h : transports ≠ []) : Ready (initial transports) :=
  List.length_pos_of_ne_nil h

theorem indexed_of_ready {s : LoopState} (h : Ready s ∧ s.ended ≠ some .panicked) : Indexed s :=
  ⟨List.ne_nil_of_length_pos (Nat.lt_of_le_of_lt (Nat.zero_le _) h.1),h⟩

theorem indexed_along (h : transports ≠ []) (events : List ε) :
    Along loop.step Indexed (initial transports) events := by
  refine along_of_meets (G := fun _ _ => True)
    (I := fun s => Ready s ∧ s.ended ≠ some .panicked) (fun s => indexed_of_ready) ?_
    ⟨ready_initial h,by simp [initial]⟩ (meets_true _ _ _)
  intro s e t hs _ ht
  exact (loop.moves s e t hs.1 ht).ready hs.1

theorem dropsOnlyFailed {s t : LoopState} {e : ε} (hready : Ready s) (h : loop.step s e = some t) :
    DropsOnlyFailed loop s e t := by
  cases loop.moves s e t hready h with
  | keeps _ htransports _ _ hended => exact ⟨.inl (htransports ▸ List.prefix_refl _),hended⟩
  | adds path _ hfailed htransports =>
    refine ⟨.inl (htransports ▸ List.prefix_append _ _),?_⟩
    intro hfail
    simp [hfailed] at hfail
  | drops _ hfailed _ htransports _ hended =>
    exact ⟨.inr ⟨hfailed,htransports⟩,fun _ hnot => absurd hended hnot⟩

theorem dropsOnlyFailed_transitions (h : transports ≠ []) (events : List ε) :
    Transitions loop.step (DropsOnlyFailed loop) (initial transports) events := by
  refine transitions_of_meets (G := fun _ _ => True) (I := Ready) ?_ (ready_initial h)
    (meets_true _ _ _)
  intro s e t hready _ ht
  exact ⟨((loop.moves s e t hready ht).ready hready).1,dropsOnlyFailed loop hready ht⟩

theorem keepsOrder (h : transports ≠ []) (events : List ε) :
    KeepsOrder loop transports events := by
  intro done t _ ht
  have hrun : Ready t ∧ t.transports.Sublist (transports++done.filterMap loop.added) := by
    refine exec_history (P := fun done t => Ready t ∧
      t.transports.Sublist (transports++done.filterMap loop.added)) ⟨ready_initial h,?_⟩ ?_ ht
    · simp [initial]
    · intro es s e u _ hs hu
      have hmoves := loop.moves s e u hs.1 hu
      refine ⟨(hmoves.ready hs.1).1,hmoves.sublist.trans ?_⟩
      have hadd : (es++[e]).filterMap loop.added =
          es.filterMap loop.added++(loop.added e).toList := by
        rw [List.filterMap_append]
        cases hadd : loop.added e <;> simp [hadd]
      rw [hadd,← List.append_assoc]
      exact hs.2.append (List.Sublist.refl _)
  exact hrun.2

end Runs

/-- In both loops, from any paths and whatever the sends, the receives and the added paths
are: the list and the active index are valid throughout, a path is dropped only because of a
failure on it, the others keep their order, and a failure ends the loop only on the last
path. -/
theorem paths_safe (transports : List ℕ) (h : transports ≠ []) (linux : List LinuxEvent)
    (worker : List WorkerEvent) :
    (Along runLinuxPacketLoop Indexed (initial transports) linux ∧
      Transitions runLinuxPacketLoop (DropsOnlyFailed linuxPaths) (initial transports) linux ∧
      KeepsOrder linuxPaths transports linux) ∧
    (Along runWorker Indexed (initial transports) worker ∧
      Transitions runWorker (DropsOnlyFailed workerPaths) (initial transports) worker ∧
      KeepsOrder workerPaths transports worker) :=
  ⟨⟨indexed_along linuxPaths h linux,dropsOnlyFailed_transitions linuxPaths h linux,
      keepsOrder linuxPaths h linux⟩,
    indexed_along workerPaths h worker,dropsOnlyFailed_transitions workerPaths h worker,
      keepsOrder workerPaths h worker⟩

/-- Two failures and an added path: the wrapped index and the order of the rest. -/
theorem paths_safe_over_failures :
    (∃ s, exec runLinuxPacketLoop (initial [0,1,2])
        [.tunRead [69] false,.peerTransport 3,.recvFailed,.recvFailed] = some s ∧
      s.transports = [3] ∧ Indexed s) ∧
    ∃ s, exec runWorker (initial [0,1]) [.heartbeat false,.recvFailed,.peerTransport 2] = some s ∧
      s.transports = [1,2] ∧ Indexed s := by
  have hsafe := paths_safe [0,1,2] (by simp)
    [.tunRead [69] false,.peerTransport 3,.recvFailed,.recvFailed] []
  have hworker := paths_safe [0,1] (by simp) []
    [.heartbeat false,.recvFailed,.peerTransport 2]
  exact ⟨⟨_,rfl,rfl,hsafe.1.1 _ _ (List.prefix_refl _) rfl⟩,
    _,rfl,rfl,hworker.2.1 _ _ (List.prefix_refl _) rfl⟩

end Bonded.PathSafety
