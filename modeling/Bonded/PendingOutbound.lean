import Bonded.Machine
import Bonded.Table

/-! The packets that have been read from the TUN device and that the native queue has not accepted.
The thread of the device and the threads that start a session flush the pending queue alike: a
packet is taken out under the lock, offered without the lock, and put back at the head if it is
refused. Between two of these steps any other thread may make any of its own. -/
namespace Bonded.PendingOutbound

open Machine

def maxPendingOutboundPackets : ℕ := 256

def maxPendingFlushPerCycle : ℕ := 16

def maxPendingFlushOnSessionStart : ℕ := 128

section Model

-- Packets are numbered in the order in which they are read.

/-- Where a call of `flushPendingOutboundPackets` is, with the rounds that its loop has left. -/
inductive Flush
  | round (left : ℕ)
  | offering (next left : ℕ)
  | refused (next : ℕ)
  | returned
  deriving DecidableEq

def Flush.packet : Flush → Option ℕ
  | .offering next _ | .refused next => some next
  | .round _ | .returned => none

/-- Where `processOutboundPacket` is: it flushes before it offers the packet that was read. -/
inductive Reader
  | reading
  | flushing (packet : ℕ)
  | refused (packet : ℕ)
  deriving DecidableEq

def Reader.packet : Reader → Option ℕ
  | .reading => none
  | .flushing packet | .refused packet => some packet

/-- The first of the `flushes` is the one of the reader; the others are those of the threads
that have started a session. -/
structure State where
  read : ℕ
  reader : Reader
  flushes : List Flush
  pending : List ℕ
  accepted : List ℕ
  evicted : List ℕ
  deriving DecidableEq

/-- A read of the device, the start of a session, and the synchronized blocks and native calls. -/
inductive Event
  | read
  | sessionStarted
  | removeFirst (i : ℕ)
  | tryQueue (i : ℕ) (queued : Bool)
  | addFirst (i : ℕ)
  | tryQueueRead (queued : Bool)
  | enqueue
  deriving DecidableEq

def start : State := ⟨0,.reading,[.returned],[],[],[]⟩

def State.flush (s : State) (i : ℕ) (f : Flush) : State := {s with flushes := s.flushes.set i f}

def enqueuePendingOutboundPacket (packet : ℕ) (s : State) : State :=
  if maxPendingOutboundPackets ≤ s.pending.length then
    {s with pending := s.pending.tail++[packet],evicted := s.evicted++s.pending.take 1}
  else {s with pending := s.pending++[packet]}

def step (s : State) : Event → Option State
  | .read =>
    match s.reader, s.flushes[0]? with
    | .reading, some Flush.returned =>
      some (State.flush {s with read := s.read+1,reader := .flushing s.read} 0
        (.round maxPendingFlushPerCycle))
    | _, _ => none
  | .sessionStarted =>
    some {s with flushes := s.flushes++[.round maxPendingFlushOnSessionStart]}
  | .removeFirst i =>
    match s.flushes[i]?, s.pending with
    | some (.round (left+1)), next::rest =>
      some (State.flush {s with pending := rest} i (.offering next left))
    | some (.round _), _ => some (s.flush i .returned)
    | _, _ => none
  | .tryQueue i queued =>
    match s.flushes[i]? with
    | some (.offering next left) =>
      some (if queued then State.flush {s with accepted := s.accepted++[next]} i (.round left)
        else s.flush i (.refused next))
    | _ => none
  | .addFirst i =>
    match s.flushes[i]? with
    | some (.refused next) => some (State.flush {s with pending := next::s.pending} i .returned)
    | _ => none
  | .tryQueueRead queued =>
    match s.reader, s.flushes[0]? with
    | .flushing packet, some Flush.returned =>
      some (if queued then {s with accepted := s.accepted++[packet],reader := .reading}
        else {s with reader := .refused packet})
    | _, _ => none
  | .enqueue =>
    match s.reader with
    | .refused packet => some (enqueuePendingOutboundPacket packet {s with reader := .reading})
    | _ => none

end Model

section Custody

/-- The packets in the hands of a thread. -/
def State.hands (s : State) : List ℕ := s.reader.packet.toList++s.flushes.filterMap Flush.packet

/-- The packets that may still be accepted. -/
def State.waiting (s : State) : List ℕ := s.pending++s.hands

/-- Every packet that has been read is in one place, and there once. -/
def Accounted (s : State) : Prop :=
  (s.accepted++(s.pending++s.hands)++s.evicted).Perm (List.range s.read)

/-- A packet that is accepted is the oldest of those that wait, and a refused packet is put back
only while there is room for it. -/
def Sound (s : State) : Event → Prop
  | .tryQueue i true => ∀ p ∈ (s.flushes[i]?.bind Flush.packet).toList, ∀ q ∈ s.waiting, p ≤ q
  | .tryQueueRead true => ∀ p ∈ s.reader.packet.toList, ∀ q ∈ s.waiting, p ≤ q
  | .addFirst _ => s.pending.length < maxPendingOutboundPackets
  | _ => True

instance (s : State) (e : Event) : Decidable (Sound s e) := by
  unfold Sound
  split <;> infer_instance

/-- What a step does with the packets. -/
inductive Moves (s : State) (e : Event) (t : State) : Prop
  | arrives (read : t.read = s.read+1) (waiting : t.waiting.Perm (s.read::s.waiting))
      (accepted : t.accepted = s.accepted) (evicted : t.evicted = s.evicted)
  | kept (read : t.read = s.read) (waiting : t.waiting.Perm s.waiting)
      (accepted : t.accepted = s.accepted) (evicted : t.evicted = s.evicted)
  | accepts (p : ℕ) (read : t.read = s.read) (waiting : s.waiting.Perm (p::t.waiting))
      (accepted : t.accepted = s.accepted++[p]) (evicted : t.evicted = s.evicted)
      (oldest : Sound s e → ∀ q ∈ s.waiting, p ≤ q)
  | evicts (p : ℕ) (read : t.read = s.read) (waiting : s.waiting.Perm (p::t.waiting))
      (accepted : t.accepted = s.accepted) (evicted : t.evicted = s.evicted++[p])
      (full : maxPendingOutboundPackets ≤ s.pending.length)

variable {s t : State} {e : Event}

/-- A thread goes on: what the others hold and what is pending is the same as before. -/
theorem waiting_flush {i : ℕ} {f : Flush} (hf : s.flushes[i]? = some f) (g : Flush) :
    ∃ others, s.waiting.Perm (f.packet.toList++others) ∧
      (s.flush i g).waiting.Perm (g.packet.toList++others) := by
  obtain ⟨rest,hold,hnew⟩ := filterMap_set Flush.packet hf g
  have hfront : ∀ (held mine : List ℕ), held.Perm (mine++rest) →
      (s.pending++(s.reader.packet.toList++held)).Perm
        (mine++(s.pending++(s.reader.packet.toList++rest))) := by
    intro held mine hperm
    refine List.perm_iff_count.mpr fun a => ?_
    simp only [List.count_append,hperm.count_eq a]
    omega
  exact ⟨_,hfront _ _ hold,hfront _ _ hnew⟩

theorem step_moves (h : step s e = some t) : Moves s e t := by
  cases e with
  | read =>
    simp only [step] at h
    split at h <;> cases h
    next hreader hflush =>
    obtain ⟨others,hold,hnew⟩ := waiting_flush (s := {s with
      read := s.read+1,reader := .flushing s.read}) hflush (.round maxPendingFlushPerCycle)
    refine .arrives rfl ((hnew.trans hold.symm).trans ?_) rfl rfl
    simp only [State.waiting,State.hands,hreader]
    exact List.perm_middle
  | sessionStarted =>
    cases h
    refine .kept rfl ?_ rfl rfl
    simp [State.waiting,State.hands,List.filterMap_append,List.filterMap_cons,Flush.packet]
  | removeFirst i =>
    simp only [step] at h
    split at h <;> cases h
    · next left next rest hflush hpending =>
      obtain ⟨others,hold,hnew⟩ :=
        waiting_flush (s := {s with pending := rest}) hflush (.offering next left)
      refine .kept rfl (hnew.trans ((hold.symm.cons next).trans ?_)) rfl rfl
      simp only [State.waiting,hpending]
      exact .rfl
    · next hflush _ =>
      obtain ⟨others,hold,hnew⟩ := waiting_flush hflush .returned
      exact .kept rfl (hnew.trans hold.symm) rfl rfl
  | tryQueue i queued =>
    simp only [step] at h
    split at h <;> cases h
    next next left hflush =>
    cases queued with
    | false =>
      obtain ⟨others,hold,hnew⟩ := waiting_flush hflush (.refused next)
      exact .kept rfl (hnew.trans hold.symm) rfl rfl
    | true =>
      obtain ⟨others,hold,hnew⟩ := waiting_flush hflush (.round left)
      refine .accepts next rfl (hold.trans (hnew.symm.cons next)) rfl rfl fun hsound => ?_
      simpa [Sound,hflush,Flush.packet] using hsound
  | addFirst i =>
    simp only [step] at h
    split at h <;> cases h
    next next hflush =>
    obtain ⟨others,hold,hnew⟩ :=
      waiting_flush (s := {s with pending := next::s.pending}) hflush .returned
    exact .kept rfl (hnew.trans (List.Perm.cons_inv hold).symm) rfl rfl
  | tryQueueRead queued =>
    simp only [step] at h
    split at h <;> cases h
    next packet hreader _ =>
    cases queued with
    | false =>
      refine .kept rfl ?_ rfl rfl
      simp [State.waiting,State.hands,hreader,Reader.packet]
    | true =>
      refine .accepts packet rfl ?_ rfl rfl fun hsound => ?_
      · simp only [State.waiting,State.hands,hreader]
        exact List.perm_middle
      · simpa [Sound,hreader,Reader.packet] using hsound
  | enqueue =>
    simp only [step] at h
    split at h <;> cases h
    next packet hreader =>
    rw [enqueuePendingOutboundPacket]
    split
    · next hfull =>
      cases hpending : s.pending with
      | nil => simp [hpending,maxPendingOutboundPackets] at hfull
      | cons p rest =>
        refine .evicts p rfl ?_ rfl rfl (hpending ▸ hfull)
        simp [State.waiting,State.hands,hreader,hpending,Reader.packet]
    · refine .kept rfl ?_ rfl rfl
      simp [State.waiting,State.hands,hreader,Reader.packet]

/-- Only a packet that is put back makes the queue longer than its bound. -/
theorem pending_step (h : step s e = some t) (he : Sound s e)
    (hs : s.pending.length ≤ maxPendingOutboundPackets) :
    t.pending.length ≤ maxPendingOutboundPackets := by
  cases e with
  | sessionStarted => cases h; exact hs
  | addFirst i =>
    simp only [step] at h
    split at h <;> cases h
    exact he
  | removeFirst i =>
    simp only [step] at h
    split at h <;> cases h
    · next hpending =>
      rw [hpending] at hs
      exact Nat.le_of_succ_le hs
    · exact hs
  | enqueue =>
    simp only [step] at h
    split at h <;> cases h
    have hroom : 0 < maxPendingOutboundPackets := by decide
    simp only [enqueuePendingOutboundPacket]
    split <;> simp only [List.length_append,List.length_tail,List.length_singleton] <;> omega
  | read | tryQueueRead | tryQueue =>
    simp only [step] at h
    split at h <;> cases h
    try split
    all_goals exact hs

theorem accounted_step (hs : Accounted s) (h : step s e = some t) : Accounted t := by
  refine List.perm_iff_count.mpr fun a => ?_
  have hs := hs.count_eq a
  rw [← State.waiting,List.count_append,List.count_append] at hs ⊢
  cases step_moves h with
  | arrives hread hwaiting haccepted hevicted =>
    rw [hread,haccepted,hevicted,hwaiting.count_eq,List.count_cons,List.range_succ,
      List.count_append,List.count_singleton]
    omega
  | kept hread hwaiting haccepted hevicted =>
    rwa [hread,haccepted,hevicted,hwaiting.count_eq]
  | accepts p hread hwaiting haccepted hevicted | evicts p hread hwaiting haccepted hevicted =>
    rw [hwaiting.count_eq,List.count_cons] at hs
    rw [hread,haccepted,hevicted,List.count_append,List.count_singleton]
    omega

end Custody
section Runs

variable {s t : State} {e : Event}

/-- What has been accepted is in order, and older than what waits. -/
structure Ordered (s : State) : Prop where
  sorted : s.accepted.Pairwise (· < ·)
  older : ∀ p ∈ s.accepted, ∀ q ∈ s.waiting, p < q

theorem Accounted.lt_read (h : Accounted s) {p : ℕ} (hp : p ∈ s.accepted) : p < s.read :=
  List.mem_range.mp (h.subset (by simp [hp]))

theorem Accounted.nodup (h : Accounted s) : s.waiting.Nodup := by
  have hall := h.nodup_iff.mpr List.nodup_range
  exact hall.of_append_left.of_append_right

theorem ordered_step (hs : Ordered s) (ha : Accounted s) (he : Sound s e)
    (h : step s e = some t) : Ordered t := by
  cases step_moves h with
  | arrives hread hwaiting haccepted hevicted =>
    refine ⟨haccepted ▸ hs.sorted,fun p hp q hq => ?_⟩
    rw [haccepted] at hp
    rcases List.mem_cons.mp (hwaiting.subset hq) with rfl | hq
    · exact ha.lt_read hp
    · exact hs.older p hp q hq
  | kept hread hwaiting haccepted hevicted =>
    refine ⟨haccepted ▸ hs.sorted,fun p hp q hq => ?_⟩
    exact hs.older p (haccepted ▸ hp) q (hwaiting.subset hq)
  | evicts p hread hwaiting haccepted hevicted hfull =>
    refine ⟨haccepted ▸ hs.sorted,fun p hp q hq => ?_⟩
    exact hs.older p (haccepted ▸ hp) q (hwaiting.symm.subset (List.mem_cons_of_mem _ hq))
  | accepts p hread hwaiting haccepted hevicted holdest =>
    have hp : p ∈ s.waiting := hwaiting.symm.subset List.mem_cons_self
    refine ⟨?_,fun x hx q hq => ?_⟩
    · rw [haccepted,List.pairwise_append]
      refine ⟨hs.sorted,List.pairwise_singleton _ _,fun x hx y hy => ?_⟩
      exact List.mem_singleton.mp hy ▸ hs.older x hx p hp
    · have hq' : q ∈ s.waiting := hwaiting.symm.subset (List.mem_cons_of_mem _ hq)
      rw [haccepted] at hx
      rcases List.mem_append.mp hx with hx | hx
      · exact hs.older x hx q hq'
      · -- the accepted packet does not wait any more, so it is older than what does
        obtain rfl := List.mem_singleton.mp hx
        refine lt_of_le_of_ne (holdest he q hq') fun heq => ?_
        have hnodup := hwaiting.nodup_iff.mp ha.nodup
        exact (List.nodup_cons.mp hnodup).1 (heq ▸ hq)

/-- One packet is read, refused and put into the queue, after a flush that is refused too. -/
def refusedRead (first : Bool) : List Event :=
  .read::(if first then [.removeFirst 0] else [.removeFirst 0,.tryQueue 0 false,.addFirst 0])++
    [.tryQueueRead false,.enqueue]

end Runs
end Bonded.PendingOutbound
