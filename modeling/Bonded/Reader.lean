import Mathlib.Data.List.Basic

/-! Readers that keep what they have read. A call reads chunks of a stream into a buffer until the
buffer decides the answer; what was read stays in the buffer when the call is cancelled. The
answers are then those of the whole stream, however it is cut. -/
namespace Bonded.Reader

/-- What was read and not used, the chunks that the next reads return, and whether the stream
ends after them. -/
structure Source (β : Type) where
  buf : List β
  chunks : List (List β)
  ended : Bool
  deriving DecidableEq, Repr

def Source.rest {β : Type} (s : Source β) : List β := s.buf++s.chunks.flatten

variable {β ρ : Type} (next : List β → Option (ρ × List β)) (closed : List β → ρ)

/-- One call. `next` is the answer that a buffer decides, with what stays in the buffer, and
`closed` the answer where the stream ends. A call that waits after `limit` reads is cancelled. -/
def call (ended : Bool) : List (List β) → ℕ → List β → Option ρ × Source β
  | [], limit, buf =>
    match next buf with
    | some (answer,left) => (some answer,⟨left,[],ended⟩)
    | none =>
      if ended = true ∧ 0 < limit then (some (closed buf),⟨buf,[],ended⟩)
      else (none,⟨buf,[],ended⟩)
  | c::cs, limit, buf =>
    match next buf with
    | some (answer,left) => (some answer,⟨left,c::cs,ended⟩)
    | none =>
      match limit with
      | 0 => (none,⟨buf,c::cs,ended⟩)
      | limit+1 => call ended cs limit (buf++c)

def callOn (limit : ℕ) (s : Source β) : Option ρ × Source β :=
  call next closed s.ended s.chunks limit s.buf

/-- One call after the other, with the answers of those that are not cancelled. -/
def calls : List ℕ → Source β → List ρ × Source β
  | [], s => ([],s)
  | limit::limits, s =>
    let now := callOn next closed limit s
    let later := calls limits now.2
    (now.1.toList++later.1,later.2)

/-- The first `n` answers of a whole stream, and what is left of it. -/
def answers (ended : Bool) : ℕ → List β → List ρ × List β
  | 0, bytes => ([],bytes)
  | n+1, bytes =>
    match next bytes with
    | some (answer,left) =>
      let later := answers ended n left
      (answer::later.1,later.2)
    | none =>
      if ended then
        let later := answers ended n bytes
        (closed bytes::later.1,later.2)
      else ([],bytes)

/-- More bytes do not change an answer that has been decided. -/
def Stable : Prop := ∀ buf answer left more, next buf = some (answer,left) →
  next (buf++more) = some (answer,left++more)

variable {next}

variable {answer : ρ} {limit : ℕ} {s : Source β}

theorem call_of_some {buf left : List β} (h : next buf = some (answer,left)) (ended : Bool)
    (chunks : List (List β)) (limit : ℕ) :
    call next closed ended chunks limit buf = (some answer,⟨left,chunks,ended⟩) := by
  cases chunks <;> simp only [call,h]

/-- What one call can do: it answers as the whole rest of the stream does, it is cancelled and
nothing is lost, or the stream has ended before an answer. -/
theorem callOn_cases (hstable : Stable next) (limit : ℕ) (s : Source β) :
    (callOn next closed limit s).2.ended = s.ended ∧
    ((∃ answer, (callOn next closed limit s).1 = some answer ∧
        next s.rest = some (answer,(callOn next closed limit s).2.rest)) ∨
      ((callOn next closed limit s).1 = none ∧ (callOn next closed limit s).2.rest = s.rest) ∨
      (next s.rest = none ∧ s.ended = true ∧ callOn next closed limit s =
        (some (closed s.rest),⟨s.rest,[],true⟩))) := by
  obtain ⟨buf,chunks,ended⟩ := s
  simp only [callOn,Source.rest]
  induction chunks generalizing limit buf with
  | nil =>
    unfold call
    split
    · next answer left hnext =>
      exact ⟨rfl,.inl ⟨answer,rfl,by simpa using hnext⟩⟩
    · next hnext =>
      split
      · next hend =>
        obtain ⟨rfl,-⟩ := hend
        exact ⟨rfl,.inr (.inr ⟨by simpa using hnext,rfl,by simp⟩)⟩
      · exact ⟨rfl,.inr (.inl ⟨rfl,rfl⟩)⟩
  | cons c cs ih =>
    unfold call
    split
    · next answer left hnext =>
      exact ⟨rfl,.inl ⟨answer,rfl,hstable _ _ _ _ hnext⟩⟩
    · cases limit with
      | zero => exact ⟨rfl,.inr (.inl ⟨rfl,rfl⟩)⟩
      | succ limit => simpa using ih limit (buf++c)

/-- A call that is not cancelled answers, if the rest of the stream has an answer. -/
theorem callOn_completes (next : List β → Option (ρ × List β)) (hlimit : s.chunks.length < limit)
    (h : (next s.rest).isSome = true ∨ s.ended = true) :
    (callOn next closed limit s).1.isSome = true := by
  obtain ⟨buf,chunks,ended⟩ := s
  simp only [callOn,Source.rest] at hlimit h ⊢
  induction chunks generalizing limit buf with
  | nil =>
    unfold call
    split
    · rfl
    · next hnext =>
      simp only [List.flatten_nil,List.append_nil,hnext,Option.isSome_none,Bool.false_eq_true,
        false_or] at h
      rw [if_pos ⟨h,hlimit⟩]
      rfl
  | cons c cs ih =>
    unfold call
    split
    · rfl
    · cases limit with
      | zero => cases hlimit
      | succ limit => exact ih (buf++c) (by simpa using hlimit) (by simpa using h)

/-- A call that is not cancelled reads just enough chunks to decide the answer. -/
theorem callOn_reads (hlimit : s.chunks.length < limit) (h : (next s.rest).isSome = true) :
    ∃ n answer, (callOn next closed limit s).1 = some answer ∧
      (callOn next closed limit s).2.chunks = s.chunks.drop n ∧
      next (s.buf++(s.chunks.take n).flatten) = some (answer,(callOn next closed limit s).2.buf) ∧
      ∀ k < n, next (s.buf++(s.chunks.take k).flatten) = none := by
  obtain ⟨buf,chunks,ended⟩ := s
  simp only [callOn,Source.rest] at hlimit h ⊢
  induction chunks generalizing limit buf with
  | nil =>
    obtain ⟨⟨answer,left⟩,hnext⟩ := Option.isSome_iff_exists.mp h
    simp only [List.flatten_nil,List.append_nil] at hnext
    refine ⟨0,answer,?_,?_,?_,fun k hk => absurd hk (Nat.not_lt_zero k)⟩
    · simp only [call,hnext]
    · simp only [call,hnext,List.drop_nil]
    · simp only [call,hnext,List.take_nil,List.flatten_nil,List.append_nil]
  | cons c cs ih =>
    cases hnext : next buf with
    | some r =>
      refine ⟨0,r.1,?_,?_,?_,fun k hk => absurd hk (Nat.not_lt_zero k)⟩
      · simp only [call,hnext]
      · simp only [call,hnext,List.drop_zero]
      · simp only [call,hnext,List.take_zero,List.flatten_nil,List.append_nil]
    | none =>
      cases limit with
      | zero => cases hlimit
      | succ limit =>
        obtain ⟨n,answer,hanswer,hchunks,hdecided,hfirst⟩ := ih (buf++c)
          (show cs.length < limit by simpa using hlimit) (by simpa using h)
        simp only [call,hnext]
        refine ⟨n+1,answer,hanswer,by simpa using hchunks,by simpa using hdecided,?_⟩
        intro k hk
        cases k with
        | zero => simpa using hnext
        | succ k => simpa using hfirst k (Nat.lt_of_succ_lt_succ hk)

/-- The answers of the calls are the first answers of the stream, whatever the chunks and
whichever calls are cancelled. -/
theorem calls_answers (hstable : Stable next) (limits : List ℕ) (s : Source β) :
    (calls next closed limits s).2.ended = s.ended ∧
    answers next closed s.ended (calls next closed limits s).1.length s.rest =
      ((calls next closed limits s).1,(calls next closed limits s).2.rest) := by
  induction limits generalizing s with
  | nil => exact ⟨rfl,rfl⟩
  | cons limit limits ih =>
    obtain ⟨hended,hcases⟩ := callOn_cases closed hstable limit s
    obtain ⟨hended',hlater⟩ := ih (callOn next closed limit s).2
    rw [hended] at hended' hlater
    refine ⟨hended',?_⟩
    simp only [calls]
    rcases hcases with ⟨answer,hanswer,hnext⟩ | ⟨hnone,hrest⟩ | ⟨hnext,hend,heq⟩
    · simp only [hanswer,Option.toList_some,List.singleton_append,List.length_cons,answers,hnext,
        hlater]
    · simp only [hnone,Option.toList_none,List.nil_append,← hrest,hlater]
    · have hrest : (callOn next closed limit s).2.rest = s.rest := by
        rw [heq]
        simp [Source.rest]
      rw [hrest] at hlater
      simp only [heq,Option.toList_some,List.singleton_append,List.length_cons,answers,hnext,hend,
        if_true] at hlater ⊢
      rw [hlater]

theorem answers_stuck {ended : Bool} {bytes : List β} (h : next bytes = some (answer,bytes) ∨
      next bytes = none ∧ ended = true ∧ closed bytes = answer) (n : ℕ) :
    answers next closed ended n bytes = (List.replicate n answer,bytes) := by
  induction n with
  | zero => rfl
  | succ n ih =>
    rcases h with h | ⟨hnone,rfl,hanswer⟩
    · simp only [answers,h,ih,List.replicate_succ]
    · simp only [answers,hnone,if_true,hanswer,ih,List.replicate_succ]

/-- A call that is not cancelled gives the next answer of the stream. -/
theorem callOn_answer (hstable : Stable next) (hlimit : s.chunks.length < limit) :
    (callOn next closed limit s).1 = (answers next closed s.ended 1 s.rest).1.head? := by
  have hcompletes := callOn_completes closed next hlimit
  obtain ⟨-,⟨answer,hanswer,hnext⟩ | ⟨hnone,-⟩ | ⟨hnext,hended,heq⟩⟩ :=
    callOn_cases closed hstable limit s
  · simp [answers,hanswer,hnext]
  · rw [hnone] at hcompletes ⊢
    cases hnext : next s.rest with
    | some r => simp [hnext] at hcompletes
    | none => simp_all [answers]
  · simp [answers,heq,hnext,hended]

/-- The buffer decides an answer that uses up nothing. -/
def Stuck (next : List β → Option (ρ × List β)) (answer : ρ) (s : Source β) : Prop :=
  next s.buf = some (answer,s.buf)

theorem callOn_of_stuck (h : Stuck next answer s) (limit : ℕ) :
    callOn next closed limit s = (some answer,s) :=
  call_of_some closed h s.ended s.chunks limit

theorem calls_of_stuck (h : Stuck next answer s) (limits : List ℕ) :
    (calls next closed limits s).2 = s := by
  induction limits with
  | nil => rfl
  | cons limit limits ih => simpa only [calls,callOn_of_stuck closed h] using ih

theorem callOn_stuck (hstable : Stable next) (h : next s.rest = some (answer,s.rest)) (limit : ℕ)
    (hsome : (callOn next closed limit s).1.isSome = true) :
    Stuck next answer (callOn next closed limit s).2 := by
  obtain ⟨buf,chunks,ended⟩ := s
  simp only [callOn,Source.rest] at h hsome ⊢
  induction chunks generalizing limit buf with
  | nil =>
    simp only [List.flatten_nil,List.append_nil] at h
    simp only [call,h]
    exact h
  | cons c cs ih =>
    cases hnext : next buf with
    | some r =>
      have hrest := hstable buf r.1 r.2 (c::cs).flatten hnext
      rw [h,Option.some.injEq,Prod.mk.injEq] at hrest
      have hleft : r = (answer,buf) := Prod.ext hrest.1.symm (List.append_cancel_right hrest.2).symm
      simp only [call,hnext,hleft]
      exact hnext.trans (congrArg some hleft)
    | none =>
      cases limit with
      | zero => simp [call,hnext] at hsome
      | succ limit =>
        simp only [call,hnext] at hsome ⊢
        exact ih limit (buf++c) (by simpa using h) hsome

/-- After more than `n` answers the buffer is stuck, if the stream is stuck after `n`. -/
theorem calls_stuck (hstable : Stable next) (answer : ρ) (limits : List ℕ) (n : ℕ) (s : Source β)
    (h : next (answers next closed s.ended n s.rest).2 =
      some (answer,(answers next closed s.ended n s.rest).2))
    (hn : n < (calls next closed limits s).1.length) :
    Stuck next answer (calls next closed limits s).2 := by
  induction limits generalizing n s with
  | nil => cases hn
  | cons limit limits ih =>
    simp only [calls,List.length_append] at hn ⊢
    obtain ⟨hended,⟨a,ha,hnext⟩ | ⟨hnone,hrest⟩ | ⟨hnext,hend,heq⟩⟩ :=
      callOn_cases closed hstable limit s
    · cases n with
      | zero =>
        have hstuck := callOn_stuck closed hstable h limit (by rw [ha]; rfl)
        rw [calls_of_stuck closed hstuck]
        exact hstuck
      | succ n =>
        simp only [answers,hnext] at h
        refine ih n _ (by rw [hended]; exact h) ?_
        simp only [ha,Option.toList_some,List.length_singleton] at hn
        omega
    · refine ih n _ (by rw [hended,hrest]; exact h) ?_
      simpa [hnone] using hn
    · have hrest : (callOn next closed limit s).2.rest = s.rest := by
        rw [heq]
        simp [Source.rest]
      cases n with
      | zero =>
        simp only [answers,hnext] at h
        cases h
      | succ n =>
        simp only [answers,hnext,hend,if_true] at h
        refine ih n _ (by rw [hended,hrest,hend]; exact h) ?_
        simp only [heq,Option.toList_some,List.length_singleton] at hn ⊢
        omega

section Decided

variable {γ : Type} (next) (pick : ρ → Option γ)

/-- The answers that some bytes decide, up to the first one that is not picked. -/
def decided : ℕ → List β → List γ
  | 0, _ => []
  | n+1, bytes =>
    match next bytes with
    | none => []
    | some (answer,left) =>
      match pick answer with
      | none => []
      | some x => x::decided n left

/-- An answer that is picked uses something up. -/
def Consumes : Prop := ∀ buf answer left x, next buf = some (answer,left) → pick answer = some x →
  left.length < buf.length

variable {next pick}

theorem decided_step {bytes left : List β} {answer : ρ} {x : γ}
    (hnext : next bytes = some (answer,left)) (hpick : pick answer = some x) (n : ℕ) :
    decided next pick (n+1) bytes = x::decided next pick n left := by
  simp only [decided,hnext,hpick]

theorem decided_enough (hconsumes : Consumes next pick) {n : ℕ} {bytes : List β}
    (h : bytes.length ≤ n) :
    decided next pick n bytes = decided next pick bytes.length bytes := by
  induction n using Nat.strongRecOn generalizing bytes with
  | _ n ih =>
    cases n with
    | zero => rw [Nat.le_zero.mp h]
    | succ n =>
      cases hnext : next bytes with
      | none => cases bytes.length <;> simp only [decided,hnext]
      | some r =>
        obtain ⟨answer,left⟩ := r
        cases hpick : pick answer with
        | none => cases bytes.length <;> simp only [decided,hnext,hpick]
        | some x =>
          have hless := hconsumes bytes answer left x hnext hpick
          obtain ⟨k,hk⟩ : ∃ k, bytes.length = k+1 := ⟨bytes.length-1,by omega⟩
          rw [hk,decided_step hnext hpick,decided_step hnext hpick,ih n (by omega) (by omega),
            ih k (by omega) (by omega)]

theorem decided_cons (hconsumes : Consumes next pick) {bytes left : List β} {answer : ρ} {x : γ}
    (hnext : next bytes = some (answer,left)) (hpick : pick answer = some x) :
    decided next pick bytes.length bytes = x::decided next pick left.length left := by
  have hless := hconsumes bytes answer left x hnext hpick
  obtain ⟨k,hk⟩ : ∃ k, bytes.length = k+1 := ⟨bytes.length-1,by omega⟩
  rw [hk,decided_step hnext hpick,decided_enough hconsumes (show left.length ≤ k by omega)]

theorem decided_append (pick : ρ → Option γ) (hstable : Stable next) (n m : ℕ) (hnm : n ≤ m)
    (bytes more : List β) :
    decided next pick n bytes <+: decided next pick m (bytes++more) := by
  induction n generalizing m bytes with
  | zero => exact List.nil_prefix
  | succ n ih =>
    obtain ⟨m,rfl⟩ : ∃ k, m = k+1 := ⟨m-1,by omega⟩
    cases hnext : next bytes with
    | none =>
      simp only [decided,hnext]
      exact List.nil_prefix
    | some r =>
      obtain ⟨answer,left⟩ := r
      cases hpick : pick answer with
      | none =>
        simp only [decided,hnext,hpick]
        exact List.nil_prefix
      | some x =>
        rw [decided_step hnext hpick,decided_step (hstable bytes answer left more hnext) hpick]
        exact (List.cons_prefix_cons).mpr ⟨rfl,ih m (Nat.le_of_succ_le_succ hnm) left⟩

end Decided

end Bonded.Reader
