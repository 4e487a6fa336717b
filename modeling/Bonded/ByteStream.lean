import Mathlib.Data.List.Basic

/-! Streams that are read piece by piece. A read into a buffer of `n` elements is answered with at
most `n` of them, waits, or fails; an empty answer for a buffer with room is the end of the
stream. How much a read returns is up to the stream. -/
namespace Bonded.ByteStream

inductive Polled (β : Type)
  | ready (data : List β)
  | pending
  | failed
  deriving DecidableEq, Repr

/-- The elements that a read has delivered. -/
def Polled.data {β : Type} : Polled β → List β
  | .ready data => data
  | _ => []

structure ReadStream (β σ : Type) where
  pollRead : σ → ℕ → Polled β × σ

variable {β σ : Type}

/-- What is left to read in a state, and the states in which the stream has ended. -/
structure Contents (β σ : Type) where
  left : σ → List β
  ended : σ → Prop

/-- A read takes a front part of what is left, and reports the end only there. -/
structure Delivers (S : ReadStream β σ) (C : Contents β σ) : Prop where
  front : ∀ s n, C.left s = (S.pollRead s n).1.data++C.left (S.pollRead s n).2
  fits : ∀ s n, (S.pollRead s n).1.data.length ≤ n
  ends : ∀ s n, 0 < n → (S.pollRead s n).1 = .ready [] → C.left s = [] ∧ C.ended s

def reads (S : ReadStream β σ) : List ℕ → σ → List β × σ
  | [], s => ([],s)
  | n::ns, s =>
    let later := reads S ns (S.pollRead s n).2
    ((S.pollRead s n).1.data++later.1,later.2)

theorem reads_left {S : ReadStream β σ} {C : Contents β σ} (h : Delivers S C) (ns : List ℕ) (s : σ) :
    C.left s = (reads S ns s).1++C.left (reads S ns s).2 := by
  induction ns generalizing s with
  | nil => rfl
  | cons n ns ih =>
    rw [h.front s n,ih (S.pollRead s n).2,← List.append_assoc]
    rfl

theorem reads_all {S : ReadStream β σ} {C : Contents β σ} (h : Delivers S C) {ns : List ℕ} {s : σ}
    {n : ℕ} (hn : 0 < n) (hend : (S.pollRead (reads S ns s).2 n).1 = .ready []) :
    (reads S ns s).1 = C.left s ∧ C.ended (reads S ns s).2 := by
  obtain ⟨hleft,hended⟩ := h.ends _ n hn hend
  refine ⟨?_,hended⟩
  have hreads := reads_left h ns s
  rw [hleft,List.append_nil] at hreads
  exact hreads.symm

end Bonded.ByteStream
