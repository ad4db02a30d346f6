import Mathlib.Data.List.Basic

/-! Runs of equal items: a list as its items with how often each comes in a row. -/
namespace Ltsm.Library
variable {A : Type*}

def expand (runs : List (A × Nat)) : List A := runs.flatMap fun run => List.replicate run.2 run.1

@[simp] theorem expandNil : expand ([] : List (A × Nat)) = [] := rfl

theorem expandCons (run : A × Nat) (rest : List (A × Nat)) :
    expand (run :: rest) = List.replicate run.2 run.1 ++ expand rest := List.flatMap_cons

theorem expandAppend (runs others : List (A × Nat)) : expand (runs ++ others) = expand runs ++ expand others :=
  List.flatMap_append

/- Runs of at least one item each. -/
theorem memExpand {runs : List (A × Nat)} (filled : ∀ run ∈ runs, 0 < run.2) {item : A} :
    item ∈ expand runs ↔ item ∈ runs.map Prod.fst := by
  simp only [expand,List.mem_flatMap,List.mem_map,List.mem_replicate]
  constructor
  · rintro ⟨run,listed,_,same⟩
    exact ⟨run,listed,same.symm⟩
  · rintro ⟨run,listed,same⟩
    exact ⟨run,listed,Nat.ne_of_gt (filled run listed),same.symm⟩

/- The last run comes first; an item joins it or starts the next. -/
def pushRun [DecidableEq A] (runs : List (A × Nat)) (item : A) : List (A × Nat) :=
  match runs with
  | [] => [(item,1)]
  | (back,length) :: rest =>
    if back = item then (back,length + 1) :: rest else (item,1) :: (back,length) :: rest

def runsOf [DecidableEq A] (items : List A) : List (A × Nat) := (items.foldl pushRun []).reverse

section
variable [DecidableEq A]

theorem pushRunExpands (runs : List (A × Nat)) (item : A) :
    expand (pushRun runs item).reverse = expand runs.reverse ++ [item] := by
  match runs with
  | [] => rfl
  | (back,length) :: rest =>
    rw [pushRun]
    split
    · rename_i same
      subst same
      simp only [List.reverse_cons,expandAppend,expandCons,expandNil,List.append_nil,List.append_assoc,
        List.replicate_succ']
    · simp only [List.reverse_cons,expandAppend,expandCons,expandNil,List.append_nil]
      rfl

theorem pushRunFilled {runs : List (A × Nat)} (filled : ∀ run ∈ runs, 0 < run.2) (item : A) :
    ∀ run ∈ pushRun runs item, 0 < run.2 := by
  match runs with
  | [] => simp [pushRun]
  | (back,length) :: rest =>
    obtain ⟨first,later⟩ := List.forall_mem_cons.mp filled
    rw [pushRun]
    split
    · exact List.forall_mem_cons.mpr ⟨Nat.succ_pos length,later⟩
    · exact List.forall_mem_cons.mpr ⟨Nat.one_pos,filled⟩

theorem runsOfExpand (items : List A) : expand (runsOf items) = items := by
  have from_ (items : List A) (runs : List (A × Nat)) :
      expand (items.foldl pushRun runs).reverse = expand runs.reverse ++ items := by
    induction items generalizing runs with
    | nil => simp
    | cons item rest ih => rw [List.foldl_cons,ih,pushRunExpands,List.append_assoc,List.singleton_append]
  exact from_ items []

theorem runsOfFilled (items : List A) : ∀ run ∈ runsOf items, 0 < run.2 := by
  have from_ (items : List A) (runs : List (A × Nat)) (filled : ∀ run ∈ runs, 0 < run.2) :
      ∀ run ∈ items.foldl pushRun runs, 0 < run.2 := by
    induction items generalizing runs with
    | nil => exact filled
    | cons item rest ih => exact ih _ (pushRunFilled filled item)
  exact fun run listed => from_ items [] (by simp) run (List.mem_reverse.mp listed)

end
end Ltsm.Library
