import Bonded.FlowIsolation
import Bonded.PollThread

/-! What the end of an iteration leaves behind. Each active connection is served once: its
socket is read once, and its bridge's bytes are written as long as the socket takes them. -/
namespace Bonded.PollService

open FlowIsolation PollThread
open SmoltcpForwarder hiding Event step

/-- What the buffers of a socket are assumed to do: reading makes no room for sending,
sending brings nothing to read, and a socket that can send takes at least a byte. -/
structure BufferLaws {τ : Type} (api : TcpApi τ) : Prop where
  recv_canSend : ∀ sock, api.canSend (api.recv sock).2 = api.canSend sock
  sendSlice_canRecv : ∀ sock bytes, api.canRecv (api.sendSlice sock bytes).2 = api.canRecv sock
  sendSlice_takes : ∀ sock bytes, api.canSend sock = true → bytes ≠ [] →
    ∃ n, (api.sendSlice sock bytes).1 = some (n+1)

section Serve

variable {τ : Type} (api : TcpApi τ)

/-- The connection and its socket after they were served. -/
def serve (x : ActiveTcpConn × τ) : ActiveTcpConn × τ :=
  let pumped := pumpFromBridge api (pumpFuel x.1.fromBridge x.1.pendingFromBridge)
    (receive api x.2).2 x.1.fromBridge x.1.pendingFromBridge
  ({x.1 with fromBridge := pumped.2.1, pendingFromBridge := pumped.2.2},pumped.1)

def left (chunks : List (List UInt8)) (pending : Option PendingBridgeBytes) : ℕ :=
  chunks.flatten.length+pending.elim 0 fun p => p.bytes.length-p.offset

variable {api}

variable (laws : BufferLaws api)
include laws

theorem pumpFromBridge_canRecv (n : ℕ) (sock : τ)
    (chunks : List (List UInt8)) (pending : Option PendingBridgeBytes) :
    api.canRecv (pumpFromBridge api n sock chunks pending).1 = api.canRecv sock :=
  pumpFromBridge_sock (R := fun s => api.canRecv s = api.canRecv sock) api
    (fun s bytes h => (laws.sendSlice_canRecv s bytes).trans h) n rfl chunks pending

/-- With enough rounds the pump stops at a socket that takes no more, or has nothing left. -/
theorem pumpFromBridge_exhausts (n : ℕ) (sock : τ)
    (chunks : List (List UInt8)) (pending : Option PendingBridgeBytes)
    (h : pumpLeft chunks pending ≤ n)
    (hsend : api.canSend (pumpFromBridge api n sock chunks pending).1 = true) :
    left (pumpFromBridge api n sock chunks pending).2.1
      (pumpFromBridge api n sock chunks pending).2.2 = 0 := by
  induction n generalizing sock chunks pending with
  | zero =>
    simp only [pumpFromBridge,left]
    simp only [pumpLeft] at h
    cases pending with
    | none => simp only [Option.elim] at h ⊢; omega
    | some p => simp only [Option.elim] at h; omega
  | succ n ih =>
    simp only [pumpFromBridge] at hsend ⊢
    split at hsend
    · next hcan =>
      simp only [hcan,if_true]
      cases pending with
      | none =>
        cases chunks with
        | nil => rfl
        | cons bytes rest =>
          exact ih sock rest (if bytes = [] then none else some ⟨bytes,0⟩)
            (Nat.le_of_lt_succ (Nat.lt_of_lt_of_le (pumpLeft_take bytes rest) h)) hsend
      | some p =>
        by_cases hdone : p.isComplete = true
        · simp only [hdone,if_true] at hsend ⊢
          exact ih sock chunks none
            (Nat.le_of_lt_succ (Nat.lt_of_lt_of_le (pumpLeft_drop chunks p) h)) hsend
        · have hlt : p.offset < p.bytes.length := by
            simpa [PendingBridgeBytes.isComplete] using hdone
          have hbytes : p.bytes.drop p.offset ≠ [] := by
            intro hnil
            have := congrArg List.length hnil
            simp at this
            omega
          obtain ⟨k,hk⟩ := laws.sendSlice_takes sock _ hcan hbytes
          simp only [hdone,if_false,Bool.false_eq_true] at hsend ⊢
          generalize api.sendSlice sock (p.bytes.drop p.offset) = sent at hk hsend ⊢
          obtain ⟨written,sock'⟩ := sent
          subst hk
          exact ih sock' chunks (if PendingBridgeBytes.isComplete
            ⟨p.bytes,p.offset+(k+1)⟩ then none else some ⟨p.bytes,p.offset+(k+1)⟩)
            (Nat.le_of_lt_succ (Nat.lt_of_lt_of_le (pumpLeft_send chunks k hdone) h)) hsend
    · next hcan => exact absurd hsend hcan

omit laws in
theorem pumpFromBridge_of_not_canSend {n : ℕ} {sock : τ} (h : api.canSend sock = false)
    (chunks : List (List UInt8)) (pending : Option PendingBridgeBytes) :
    pumpFromBridge api n sock chunks pending = (sock,chunks,pending) := by
  cases n with
  | zero => rfl
  | succ n => simp [pumpFromBridge,h]

theorem serve_exhausts (x : ActiveTcpConn × τ)
    (h : api.canSend (serve api x).2 = true) : backlog (serve api x).1 = 0 :=
  pumpFromBridge_exhausts laws _ _ _ _
    (by cases hp : x.1.pendingFromBridge <;> simp [pumpLeft,pumpFuel]; omega) h

theorem serve_canRecv (x : ActiveTcpConn × τ) :
    api.canRecv (serve api x).2 = api.canRecv (receive api x.2).2 :=
  pumpFromBridge_canRecv laws _ _ _ _

theorem serve_of_not_canSend {x : ActiveTcpConn × τ}
    (h : api.canSend x.2 = false) : (serve api x).1 = x.1 := by
  have hreceived : api.canSend (receive api x.2).2 = false := by
    unfold receive
    split
    · rw [laws.recv_canSend]
      exact h
    · exact h
  simp only [serve,pumpFromBridge_of_not_canSend hreceived]

end Serve

section Handles

variable {τ : Type} {api : TcpApi τ}

variable {handle : ℕ} {s : Forwarder τ} {x : ActiveTcpConn × τ}

theorem connAt_some : connAt s handle = some x ↔ s.active.get handle = some x.1 ∧
      ∃ slot, socketAt s.sockets handle = some slot ∧ slot.sock = x.2 := by
  obtain ⟨conn,sock⟩ := x
  unfold connAt
  split
  · next c slot hc hslot => simp [hc,hslot]
  · next hnone =>
    simp only [reduceCtorEq,false_iff,not_and,not_exists]
    intro hc slot hslot
    exact absurd hslot (by simpa using hnone conn slot hc)

theorem connAt_serviceOne (s : Forwarder τ) (k handle : ℕ) :
    connAt (serviceOne api noReplies s k) handle =
      if handle = k then (connAt s handle).map (serve api) else connAt s handle := by
  unfold serviceOne
  split
  · next conn slot hconn hslot =>
    by_cases hk : handle = k
    · subst hk
      simp [connAt,hconn,hslot,socketAt_set hslot,serve,noReplies]
    · simp [connAt,hk,Table.get_set_ne hk,socketAt_set hslot]
  · next hnone =>
    split
    · next hk =>
      subst hk
      have hempty : connAt s handle = none := by
        unfold connAt
        split
        · next conn slot hconn hslot => exact absurd hslot (hnone conn slot hconn)
        · rfl
      rw [hempty]
      rfl
    · rfl

theorem connAt_serviceAll {ks : List ℕ} (hnodup : ks.Nodup) (s : Forwarder τ) (handle : ℕ) :
    connAt (ks.foldl (serviceOne api noReplies) s) handle =
      if handle ∈ ks then (connAt s handle).map (serve api) else connAt s handle := by
  induction ks generalizing s with
  | nil => simp
  | cons k ks ih =>
    obtain ⟨hk,hks⟩ := List.nodup_cons.mp hnodup
    rw [List.foldl_cons,ih hks,connAt_serviceOne]
    by_cases heq : handle = k
    · subst heq
      simp [hk]
    · simp [heq]

theorem connAt_service (s : Forwarder τ) (handle : ℕ) :
    connAt (service api noReplies s) handle = (connAt s handle).map (serve api) := by
  rw [service,handles,connAt_serviceAll s.active.nodup_keys]
  split
  · rfl
  · next hnot =>
    cases hconn : connAt s handle with
    | none => rfl
    | some x =>
      obtain ⟨hget,-⟩ := connAt_some.mp hconn
      exact absurd (List.mem_map.mpr ⟨_,(Table.mem_toList _ _ _).mpr hget,rfl⟩) hnot

theorem connAt_removeClosed (h : connAt (removeClosed api s) handle = some x) :
    connAt s handle = some x := by
  have hall : ∀ (ks : List ℕ) (t : Forwarder τ), connAt (ks.foldl removeOne t) handle = some x →
      connAt t handle = some x := by
    intro ks
    induction ks with
    | nil => exact fun t ht => ht
    | cons k ks ih =>
      intro t ht
      obtain ⟨hget,slot,hslot,hsock⟩ := connAt_some.mp (ih _ ht)
      simp only [removeOne,Table.get_remove,socketAt_set_none] at hget hslot
      by_cases hk : handle = k
      · simp [hk] at hget
      · rw [if_neg hk] at hget hslot
        exact connAt_some.mpr ⟨hget,slot,hslot,hsock⟩
  exact hall _ _ h

theorem connAt_promote (h : connAt (promote api s) handle = some x) :
    (connAt s handle = some x ∨ backlog x.1 = 0) ∧
      ∃ slot, socketAt s.sockets handle = some slot ∧ slot.sock = x.2 := by
  have hall : ∀ (left : List PendingTcpConn) (t : Forwarder τ),
      connAt (left.foldl promoteOne t) handle = some x →
      (connAt t handle = some x ∨ backlog x.1 = 0) ∧
        ∃ slot, socketAt t.sockets handle = some slot ∧ slot.sock = x.2 := by
    intro left
    induction left with
    | nil => exact fun t ht => ⟨.inl ht,(connAt_some.mp ht).2⟩
    | cons p left ih =>
      intro t ht
      obtain ⟨hconn,slot,hslot,hsock⟩ := ih _ ht
      unfold promoteOne at hconn hslot
      split at hslot
      · next hconflict =>
        simp only [hconflict,if_true] at hconn
        rw [socketAt_set_none] at hslot
        have hk : handle ≠ p.handle := by
          rintro rfl
          simp at hslot
        rw [if_neg hk] at hslot
        refine ⟨hconn.imp_left fun hold => ?_,slot,hslot,hsock⟩
        exact connAt_some.mpr ⟨(connAt_some.mp hold).1,slot,hslot,hsock⟩
      · next hconflict =>
        simp only [hconflict,if_false,Bool.false_eq_true] at hconn
        refine ⟨hconn.elim (fun hold => ?_) .inr,slot,hslot,hsock⟩
        obtain ⟨hget,-⟩ := connAt_some.mp hold
        simp only [Table.get_set] at hget
        split at hget
        · right
          rw [← Option.some.inj hget]
          rfl
        · exact .inl (connAt_some.mpr ⟨hget,slot,hslot,hsock⟩)
  exact hall (s.pending.filter (isEstablished api s)).reverse
    {s with pending := s.pending.filter fun p => ¬ isEstablished api s p} h

theorem connAt_finish (h : connAt (finish api noReplies s) handle = some x) :
    ∃ y, connAt (promote api s) handle = some y ∧ serve api y = x := by
  have hserved := connAt_removeClosed h
  rw [connAt_service] at hserved
  exact Option.map_eq_some_iff.mp hserved

end Handles

end Bonded.PollService
