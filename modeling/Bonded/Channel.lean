import Mathlib.Tactic.Common

/-! An unbounded channel with one receiver. It is connected as long as a sender is left. -/
namespace Bonded

structure Channel (α : Type) where
  queue : List α
  connected : Bool
  deriving DecidableEq

namespace Channel

variable {α : Type}

def new : Channel α := ⟨[],true⟩

def send (c : Channel α) (x : α) : Channel α := {c with queue := c.queue++[x]}

/-- The last sender is gone. -/
def disconnect (c : Channel α) : Channel α := {c with connected := false}

/-- What a receiver finds: an item, the end of the channel, or nothing yet. -/
inductive Received (α : Type)
  | item (x : α)
  | closed
  | pending
  deriving DecidableEq

/-- The channel ends only after its last item. -/
def recv (c : Channel α) : Received α × Channel α :=
  match c.queue with
  | x::rest => (.item x,{c with queue := rest})
  | [] => (if c.connected then .pending else .closed,c)

theorem recv_connected (c : Channel α) : c.recv.2.connected = c.connected := by
  unfold recv
  split <;> rfl

theorem recv_ne_closed {c : Channel α} (h : c.connected = true) : c.recv.1 ≠ .closed := by
  unfold recv
  split
  · simp
  · simp [h]

end Channel
end Bonded
