import Ltsm.Library.Run

/-! A queue that is written at its end and read at its front. Each step is described by what it puts
in and what it takes out; over a run the two are gathered, and nothing is lost, made up or moved. -/
namespace Ltsm.Library
variable {σ α τ : Type*}

/- What is taken and what is left are what was there and what was put behind it. -/
def Balanced (before put taken after : List τ) : Prop := taken ++ after = before ++ put

/- What the steps of a run amount to, in their order. -/
def gathered (step : σ → α → σ) (part : σ → α → List τ) : σ → List α → List τ
  | _, [] => []
  | s, a :: rest => part s a ++ gathered step part (step s a) rest

theorem balancedIdle (queue : List τ) : Balanced queue [] [] queue := (List.append_nil queue).symm

theorem balancedPut (queue put : List τ) : Balanced queue put [] (queue ++ put) := rfl

theorem balancedTake (queue : List τ) (n : Nat) : Balanced queue [] (queue.take n) (queue.drop n) := by
  rw [Balanced,List.take_append_drop,List.append_nil]

theorem Balanced.trans {before put taken between put' taken' after : List τ}
    (one : Balanced before put taken between) (two : Balanced between put' taken' after) :
    Balanced before (put ++ put') (taken ++ taken') after := by
  unfold Balanced at *
  calc
    taken ++ taken' ++ after = taken ++ (between ++ put') := by rw [List.append_assoc,two]
    _ = before ++ (put ++ put') := by rw [← List.append_assoc,one,List.append_assoc]

section
variable {step : σ → α → σ} {content : σ → List τ} {put taken : σ → α → List τ}

/-- The rule for a run of balanced steps. -/
theorem balancedRun (each : ∀ s a, Balanced (content s) (put s a) (taken s a) (content (step s a)))
    (s : σ) (actions : List α) :
    Balanced (content s) (gathered step put s actions) (gathered step taken s actions)
      (content (run step s actions)) := by
  induction actions generalizing s with
  | nil => exact balancedIdle (content s)
  | cons a rest ih => exact (each s a).trans (ih (step s a))

theorem gatheredConst (step : σ → α → σ) (part : α → List τ) (s : σ) (actions : List α) :
    gathered step (fun _ => part) s actions = actions.flatMap part := by
  induction actions generalizing s with
  | nil => rfl
  | cons a rest ih => rw [gathered,ih,List.flatMap_cons]

end
end Ltsm.Library
