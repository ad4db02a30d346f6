import Mathlib.Data.Nat.Basic

/-! The longest front of a list whose items fit into a room together. -/
namespace Ltsm.Library
variable {α : Type*} (size : α → Nat) (room : Nat)

def load : List α → Nat
  | [] => 0
  | item :: rest => size item + load rest

/- What is taken beside what has been taken already, and what is left. -/
def takeBatch : Nat → List α → List α × List α
  | _, [] => ([],[])
  | total, item :: rest =>
    if room < total + size item then ([],item :: rest)
    else
      let (batch,left) := takeBatch (total + size item) rest
      (item :: batch,left)

variable {size room} {total : Nat} {items : List α}

theorem takeBatchSplit : (takeBatch size room total items).1 ++ (takeBatch size room total items).2 = items := by
  induction items generalizing total with
  | nil => rfl
  | cons item rest ih =>
    rw [takeBatch]
    split
    · rfl
    · exact congrArg (item :: ·) ih

theorem takeBatchFits (within : total ≤ room) : total + load size (takeBatch size room total items).1 ≤ room := by
  induction items generalizing total with
  | nil => exact within
  | cons item rest ih =>
    rw [takeBatch]
    split
    · exact within
    · have more := ih (show total + size item ≤ room by omega)
      rw [Nat.add_assoc] at more
      exact more

/- An item that fits is taken. -/
theorem takeBatchSome {item : α} {rest : List α} (fits : size item ≤ room) :
    (takeBatch size room 0 (item :: rest)).1 ≠ [] := by
  rw [takeBatch,if_neg (by omega)]
  exact List.cons_ne_nil _ _

end Ltsm.Library
