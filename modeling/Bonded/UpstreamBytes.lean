import Mathlib.Algebra.GroupWithZero.Nat
import Bonded.SmoltcpForwarder

/-! The way of upstream bytes into the client's socket, round by round of the service loop. The
bridge's reader may send chunks at any time, also while the loop runs; between two runs of the
loop the socket may change in any way. -/
namespace Bonded.UpstreamBytes

open Machine SmoltcpForwarder

section Code

/-- One connection; `running` while the thread is in its loop. What was sent to the channel and
what the socket has accepted is history. -/
structure Pump (τ : Type) where
  sock : τ
  queued : List (List UInt8)
  pending : Option PendingBridgeBytes
  running : Bool
  sent : List (List UInt8)
  accepted : List UInt8

def start {τ : Type} (sock : τ) : Pump τ := ⟨sock,[],none,false,[],[]⟩

def remaining (p : PendingBridgeBytes) : List UInt8 := p.bytes.drop p.offset

variable {τ : Type} (api : TcpApi τ)

/-- The second half of a round: a chunk that is done is dropped, otherwise the socket is offered
what remains of it. An error or a refusal ends the loop. -/
def transmit (s : Pump τ) (p : PendingBridgeBytes) : Pump τ :=
  if p.isComplete then {s with pending := none}
  else
    match api.sendSlice s.sock (remaining p) with
    | (none,sock) => {s with sock := sock, pending := some p, running := false}
    | (some 0,sock) => {s with sock := sock, pending := some p, running := false}
    | (some (k+1),sock) =>
      let p' : PendingBridgeBytes := {p with offset := p.offset+(k+1)}
      {s with
        sock := sock
        pending := if p'.isComplete then none else some p'
        accepted := s.accepted++(remaining p).take (k+1)}

/-- One round of `while socket.can_send()`. -/
def round (s : Pump τ) : Pump τ :=
  if api.canSend s.sock then
    match s.pending with
    | some p => transmit api s p
    | none =>
      match s.queued with
      | [] => {s with running := false}
      | bytes::rest =>
        if bytes = [] then {s with queued := rest}
        else transmit api {s with queued := rest} ⟨bytes,0⟩
  else {s with running := false}

inductive Event (τ : Type)
  | send (bytes : List UInt8)
  | enter
  | round
  | disturb (change : τ → τ)

def step (s : Pump τ) : Event τ → Option (Pump τ)
  | .send bytes => some {s with queued := s.queued++[bytes], sent := s.sent++[bytes]}
  | .enter => if s.running then none else some {s with running := true}
  | .round => if s.running then some (round api s) else none
  | .disturb change => if s.running then none else some {s with sock := change s.sock}

/-- The loop without a chunk that arrives meanwhile. -/
def loop : ℕ → Pump τ → Pump τ
  | 0, s => s
  | n+1, s => if s.running then loop n (round api s) else s

end Code

section Bytes

variable {τ : Type} {api : TcpApi τ} {s t : Pump τ}

/-- What was taken from the channel has been accepted but for the stored remainder, and the rest
is still in the channel. -/
structure Unchanged (s : Pump τ) : Prop where
  taken : ∃ received, s.sent = received++s.queued ∧
    received.flatten = s.accepted++s.pending.elim [] remaining
  inOrder : s.accepted <+: s.sent.flatten
  all : s.sent.flatten = s.accepted++s.pending.elim [] remaining++s.queued.flatten

/-- The bytes that were taken, with the chunk the loop is about to offer. -/
def Conserves (s : Pump τ) : Prop :=
  ∃ received, s.sent = received++s.queued ∧
    received.flatten = s.accepted++s.pending.elim [] remaining

theorem Conserves.unchanged (h : Conserves s) : Unchanged s := by
  obtain ⟨received,hsent,hflat⟩ := h
  have hall : s.sent.flatten = s.accepted++s.pending.elim [] remaining++s.queued.flatten := by
    rw [hsent,List.flatten_append,hflat]
  refine ⟨⟨received,hsent,hflat⟩,?_,hall⟩
  rw [hall,List.append_assoc]
  exact List.prefix_append _ _

theorem remaining_eq_nil {p : PendingBridgeBytes} (h : p.isComplete = true) : remaining p = [] := by
  rw [PendingBridgeBytes.isComplete,decide_eq_true_eq] at h
  exact List.drop_eq_nil_of_le h

theorem Conserves.transmit {p : PendingBridgeBytes}
    {received : List (List UInt8)} (hsent : s.sent = received++s.queued)
    (hflat : received.flatten = s.accepted++remaining p) : Conserves (transmit api s p) := by
  unfold UpstreamBytes.transmit
  split
  · next hdone =>
    rw [remaining_eq_nil hdone] at hflat
    exact ⟨received,hsent,hflat⟩
  · rcases api.sendSlice s.sock (remaining p) with ⟨_ | _ | k,sock⟩
    · exact ⟨received,hsent,hflat⟩
    · exact ⟨received,hsent,hflat⟩
    · refine ⟨received,hsent,?_⟩
      have hrest : (remaining p).drop (k+1) = remaining ⟨p.bytes,p.offset+(k+1)⟩ := by
        rw [remaining,List.drop_drop,remaining]
      have hpending : (if PendingBridgeBytes.isComplete ⟨p.bytes,p.offset+(k+1)⟩ then none
          else some (⟨p.bytes,p.offset+(k+1)⟩ : PendingBridgeBytes)).elim [] remaining =
          (remaining p).drop (k+1) := by
        split
        · next hdone => rw [hrest,remaining_eq_nil hdone]; rfl
        · exact hrest.symm
      simp only [hpending]
      rw [hflat,List.append_assoc,List.take_append_drop]

theorem Conserves.round (h : Conserves s) :
    Conserves (round api s) := by
  obtain ⟨received,hsent,hflat⟩ := h
  unfold UpstreamBytes.round
  split
  · split
    · next p hp =>
      rw [hp] at hflat
      exact Conserves.transmit hsent hflat
    · next hp =>
      rw [hp] at hflat
      split
      · exact ⟨received,hsent,by rw [hp]; exact hflat⟩
      · next bytes rest hqueued =>
        have hnext : s.sent = (received++[bytes])++rest := by
          rw [hsent,hqueued,List.append_assoc]
          rfl
        split
        · next hempty =>
          refine ⟨received++[bytes],hnext,?_⟩
          rw [List.flatten_append,hflat,hempty,hp]
          simp
        · refine Conserves.transmit hnext ?_
          rw [List.flatten_append,hflat]
          simp [remaining]
  · exact ⟨received,hsent,hflat⟩

theorem conserves_step {e : Event τ} (h : Conserves s)
    (ht : step api s e = some t) : Conserves t := by
  cases e with
  | send bytes =>
    cases ht
    obtain ⟨received,hsent,hflat⟩ := h
    exact ⟨received,by simp only [hsent,List.append_assoc],hflat⟩
  | enter =>
    simp only [step] at ht
    split at ht
    · cases ht
    · cases ht
      exact h
  | round =>
    simp only [step] at ht
    split at ht
    · cases ht
      exact h.round
    · cases ht
  | disturb change =>
    simp only [step] at ht
    split at ht
    · cases ht
    · cases ht
      exact h

end Bytes

section Ends

variable {τ : Type} {api : TcpApi τ} {s t : Pump τ}

theorem pumpLeft_transmit (api : TcpApi τ) (s : Pump τ) (p : PendingBridgeBytes) :
    (transmit api s p).running = false ∨
      pumpLeft (transmit api s p).queued (transmit api s p).pending < pumpLeft s.queued (some p) := by
  unfold transmit
  split
  · exact .inr (pumpLeft_drop _ p)
  · next hdone =>
    rcases api.sendSlice s.sock (remaining p) with ⟨_ | _ | k,sock⟩
    · exact .inl rfl
    · exact .inl rfl
    · exact .inr (pumpLeft_send _ k hdone)

theorem pumpLeft_round (api : TcpApi τ) (s : Pump τ) :
    (round api s).running = false ∨
      pumpLeft (round api s).queued (round api s).pending < pumpLeft s.queued s.pending := by
  unfold round
  split
  · split
    · next p hp =>
      rw [hp]
      exact pumpLeft_transmit api s p
    · next hp =>
      rw [hp]
      split
      · exact .inl rfl
      · next bytes rest hqueued =>
        rw [hqueued]
        have htake := pumpLeft_take bytes rest
        split
        · next hempty =>
          rw [if_pos hempty] at htake
          exact .inr htake
        · next hempty =>
          rw [if_neg hempty] at htake
          rcases pumpLeft_transmit api {s with queued := rest} ⟨bytes,0⟩ with hends | hless
          · exact .inl hends
          · exact .inr (Nat.lt_trans hless htake)
  · exact .inl rfl

/-- The rounds that the loop can still make, without a chunk that arrives. -/
def roundsLeft (s : Pump τ) : ℕ := if s.running then pumpLeft s.queued s.pending+1 else 0

theorem roundsLeft_round (api : TcpApi τ) (hrun : s.running = true) :
    roundsLeft (round api s)+1 ≤ roundsLeft s := by
  simp only [roundsLeft,hrun,if_true]
  rcases pumpLeft_round api s with hends | hless
  · simp [hends]
  · split
    · omega
    · omega

def isRound : Event τ → Bool
  | .round => true
  | _ => false

/-- What the chunks that arrive during a run of events add to the work of the loop. -/
def arriving (es : List (Event τ)) : ℕ :=
  (es.map fun e => match e with
    | .send bytes => bytes.length+2
    | _ => 0).sum

theorem roundsLeft_send (bytes : List UInt8) :
    roundsLeft {s with queued := s.queued++[bytes], sent := s.sent++[bytes]} ≤
      roundsLeft s+(bytes.length+2) := by
  simp only [roundsLeft,pumpLeft,List.length_append,List.flatten_append,List.length_singleton,
    List.flatten_cons,List.flatten_nil,List.append_nil]
  split
  · omega
  · omega

/-- As long as the loop is not entered anew, it makes no more rounds than it has work for. -/
theorem rounds_le {es : List (Event τ)} (hinside : Event.enter ∉ es)
    (h : exec (step api) s es = some t) :
    es.countP isRound+roundsLeft t ≤ roundsLeft s+arriving es := by
  induction es generalizing s with
  | nil =>
    cases h
    simp [arriving]
  | cons e es ih =>
    obtain ⟨u,hu,hrest⟩ := exec_cons.mp h
    simp only [List.mem_cons,not_or] at hinside
    obtain ⟨he,hes⟩ := hinside
    have hih := ih hes hrest
    rw [List.countP_cons,arriving,List.map_cons,List.sum_cons,← arriving]
    cases e with
    | send bytes =>
      cases hu
      have hsend := roundsLeft_send (s:=s) bytes
      simp only [isRound,if_false,Bool.false_eq_true]
      omega
    | enter => exact absurd rfl he
    | round =>
      simp only [step] at hu
      split at hu
      · next hrun =>
        cases hu
        have hround := roundsLeft_round api hrun
        simp only [isRound,if_true]
        omega
      · cases hu
    | disturb change =>
      simp only [step] at hu
      split at hu
      · cases hu
      · cases hu
        simp only [isRound,if_false,Bool.false_eq_true]
        exact Nat.le_trans hih (by simp [roundsLeft])

theorem loop_stops (api : TcpApi τ) (n : ℕ) (h : roundsLeft s ≤ n) : (loop api n s).running = false := by
  induction n generalizing s with
  | zero =>
    rw [roundsLeft] at h
    split at h
    · omega
    · next hrun => exact Bool.eq_false_iff.mpr hrun
  | succ n ih =>
    rw [loop]
    split
    · next hrun =>
      have hround := roundsLeft_round api hrun
      exact ih (by omega)
    · next hrun => simpa using hrun

/-- What the model of the poll thread keeps of a connection. -/
def parts (s : Pump τ) : τ × List (List UInt8) × Option PendingBridgeBytes :=
  (s.sock,s.queued,s.pending)

theorem loop_of_stopped (n : ℕ) (h : s.running = false) : loop api n s = s := by
  cases n with
  | zero => rfl
  | succ n => simp [loop,h]

/-- The recursion takes and offers a chunk in two calls, a round does both. -/
theorem pumpFromBridge_of_enough {n m : ℕ} (hrun : s.running = true)
    (hn : pumpLeft s.queued s.pending < n) (hm : pumpLeft s.queued s.pending < m) :
    parts (loop api m s) = pumpFromBridge api n s.sock s.queued s.pending := by
  induction n generalizing s m with
  | zero => cases hn
  | succ n ih =>
    obtain _ | m := m
    · cases hm
    obtain ⟨sock,queued,pending,_,sent,accepted⟩ := s
    cases hrun
    have hfewer {k : ℕ} (hk : k < pumpLeft queued pending) : k < n ∧ k < m :=
      ⟨Nat.lt_of_lt_of_le hk (Nat.le_of_lt_succ hn),Nat.lt_of_lt_of_le hk (Nat.le_of_lt_succ hm)⟩
    rw [pumpFromBridge.eq_def,loop,if_pos rfl,round]
    dsimp only
    by_cases hsend : api.canSend sock = true
    swap
    · rw [if_neg hsend,if_neg hsend,loop_of_stopped _ rfl]
      rfl
    simp only [if_pos hsend]
    cases pending with
    | none =>
      cases queued with
      | nil => rw [loop_of_stopped _ rfl,parts]
      | cons bytes rest =>
        have htake := pumpLeft_take bytes rest
        by_cases hempty : bytes = []
        · simp only [if_pos hempty] at htake ⊢
          exact ih rfl (hfewer htake).1 (hfewer htake).2
        · simp only [if_neg hempty] at htake ⊢
          have htaken := ih (s:=⟨sock,rest,some ⟨bytes,0⟩,true,sent,accepted⟩) rfl
            (hfewer htake).1 (Nat.lt_trans htake hm)
          rw [loop,if_pos rfl,round,if_pos hsend] at htaken
          exact htaken
    | some p =>
      dsimp only [transmit]
      by_cases hdone : p.isComplete = true
      · have hdrop := pumpLeft_drop queued p
        simp only [if_pos hdone]
        exact ih rfl (hfewer hdrop).1 (hfewer hdrop).2
      · simp only [if_neg hdone,remaining]
        rcases api.sendSlice sock (p.bytes.drop p.offset) with ⟨_ | _ | k,sock⟩
        · rw [loop_of_stopped _ rfl]
          rfl
        · rw [loop_of_stopped _ rfl]
          rfl
        · have hless := pumpLeft_send queued k hdone
          exact ih rfl (hfewer hless).1 (hfewer hless).2

/-- The poll thread's function for one connection is this loop, run to its end. -/
theorem pumpFromBridge_loop (s : Pump τ) :
    pumpFromBridge api (pumpFuel s.queued s.pending) s.sock s.queued s.pending =
      parts (loop api (roundsLeft {s with running := true}) {s with running := true}) := by
  have hfuel : pumpLeft s.queued s.pending < pumpFuel s.queued s.pending := by
    cases s.pending <;> simp only [pumpLeft,pumpFuel,Option.elim] <;> omega
  exact (pumpFromBridge_of_enough (s:={s with running := true}) rfl hfuel
    (by simp [roundsLeft])).symm

end Ends

section Main

/-- For every socket, every run of chunks and iterations: nothing is lost, doubled or reordered,
and the loop makes no more rounds than it has work for and ends. -/
theorem upstream_bytes_unchanged {τ : Type} (api : TcpApi τ) (sock : τ) (es : List (Event τ)) :
    Along (step api) Unchanged (start sock) es ∧
    (∀ s t fs, Event.enter ∉ fs → exec (step api) s fs = some t →
      fs.countP isRound ≤ roundsLeft s+arriving fs) ∧
    ∀ s n, roundsLeft s ≤ n → (loop api n s).running = false := by
  refine ⟨?_,?_,?_⟩
  · exact along_of_meets (fun _ h => Conserves.unchanged h)
      (fun _ _ _ h _ ht => conserves_step h ht) ⟨[],rfl,rfl⟩ (meets_true _ _ es)
  · intro s t fs hinside h
    have hle := rounds_le hinside h
    omega
  · exact fun s n h => loop_stops api n h

/-- A socket that is nothing but its free space. -/
def spaceOnly : TcpApi ℕ where
  listen _ := 0
  state _ := .established
  localPort _ := 443
  remote _ := none
  wellFormed _ := false
  process sock _ _ := (sock,[])
  dispatch sock _ := (sock,[])
  refuse _ := []
  canRecv _ := false
  recv sock := ([],sock)
  canSend sock := 0 < sock
  sendSlice sock bytes := (some (min sock bytes.length),sock-bytes.length)

/-- Three chunks, one of them empty, into a socket with room for two bytes and then for four;
the last one arrives while the loop runs. -/
def shortWrites : List (Event ℕ) :=
  [.send [1,2,3],.enter,.round,.send [],.round,.disturb fun _ => 4,.enter,.round,.send [4,5],.round,
    .round]

theorem upstream_bytes_unchanged_shortWrites :
    ∃ t, exec (step spaceOnly) (start 2) shortWrites = some t ∧ t.accepted = [1,2,3,4,5] ∧
      Unchanged t :=
  ⟨_,rfl,rfl,(upstream_bytes_unchanged spaceOnly 2 shortWrites).1 _ _ (List.prefix_refl _) rfl⟩

end Main

end Bonded.UpstreamBytes
