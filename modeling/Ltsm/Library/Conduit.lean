import Mathlib.Data.List.Basic

/-! What goes from one end to another through a middle man: offered, taken by him, passed on. -/
namespace Ltsm.Library
universe u
variable {α : Type u}

/- All that was `given`, and where it is. -/
structure Conduit (α : Type u) where
  given : List α
  pending : List α
  held : List α
  written : List α
  deriving DecidableEq, Repr

namespace Conduit

def empty : Conduit α := ⟨[],[],[],[]⟩

def offer (c : Conduit α) (items : List α) : Conduit α :=
  {c with given := c.given ++ items, pending := c.pending ++ items}

def take (c : Conduit α) (count : Nat) : Conduit α :=
  {c with pending := c.pending.drop count, held := c.held ++ c.pending.take count}

def pass (c : Conduit α) (count : Nat) : Conduit α :=
  {c with held := c.held.drop count, written := c.written ++ c.held.take count}

/- Nothing is lost, doubled or out of order. -/
def Whole (c : Conduit α) : Prop := c.given = c.written ++ c.held ++ c.pending

/- How much has been taken. -/
def taken (c : Conduit α) : Nat := c.written.length + c.held.length

theorem wholeEmpty : (empty : Conduit α).Whole := rfl

theorem wholeOffer {c : Conduit α} (whole : c.Whole) (items : List α) : (c.offer items).Whole := by
  unfold Whole offer at *
  simp only [whole,List.append_assoc]

theorem wholeTake {c : Conduit α} (whole : c.Whole) (count : Nat) : (c.take count).Whole := by
  unfold Whole take at *
  simp only [whole,List.append_assoc,List.take_append_drop]

theorem wholePass {c : Conduit α} (whole : c.Whole) (count : Nat) : (c.pass count).Whole := by
  unfold Whole pass at *
  rw [whole,List.append_assoc c.written (c.held.take count),List.take_append_drop]

theorem Whole.writtenGiven {c : Conduit α} (whole : c.Whole) : c.written <+: c.given :=
  ⟨c.held ++ c.pending,by rw [whole,List.append_assoc]⟩

theorem Whole.length {c : Conduit α} (whole : c.Whole) : c.given.length = c.taken + c.pending.length := by
  unfold Whole at whole
  rw [whole,taken,List.length_append,List.length_append]

theorem Whole.through {c : Conduit α} (whole : c.Whole) (held : c.held = []) :
    c.given = c.written ++ c.pending := by
  unfold Whole at whole
  rw [whole,held,List.append_nil]

theorem givenOffer (c : Conduit α) (items : List α) : c.given <+: (c.offer items).given := ⟨items,rfl⟩

theorem writtenPass (c : Conduit α) (count : Nat) : c.written <+: (c.pass count).written := ⟨c.held.take count,rfl⟩

theorem takenTake (c : Conduit α) (count : Nat) :
    (c.take count).taken = c.taken + min count c.pending.length := by
  unfold taken take
  simp only [List.length_append,List.length_take]
  omega

theorem takenPass (c : Conduit α) (count : Nat) : (c.pass count).taken = c.taken := by
  unfold taken pass
  simp only [List.length_append,List.length_take,List.length_drop]
  omega

end Conduit
end Ltsm.Library
