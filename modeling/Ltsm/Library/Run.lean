import Mathlib.Data.List.Basic
import Mathlib.Logic.Function.Basic

/-! Finite runs of a total step function over a list of actions. Whatever a
system may do next (a message, a scheduling choice, an answer of its environment)
is carried by the action, so a property of every interleaving is a property of
every action list. -/
namespace Ltsm.Library
variable {σ α τ : Type*}

/-- The state after the actions, first one first. -/
def run (step : σ → α → σ) (s : σ) (actions : List α) : σ := actions.foldl step s

/-- Each action of the run meets `C` together with the state it is taken in. -/
def Meets (step : σ → α → σ) (C : σ → α → Prop) : σ → List α → Prop
  | _, [] => True
  | s, a :: rest => C s a ∧ Meets step C (step s a) rest

/- In every state that the run reaches. -/
def Always (step : σ → α → σ) (P : σ → Prop) (s : σ) (actions : List α) : Prop :=
  ∀ first, first <+: actions → P (run step s first)

instance decidableMeets (step : σ → α → σ) (C : σ → α → Prop) [∀ s a, Decidable (C s a)] :
    (s : σ) → (actions : List α) → Decidable (Meets step C s actions)
  | _, [] => isTrue trivial
  | s, a :: rest =>
    have := decidableMeets step C (step s a) rest
    inferInstanceAs (Decidable (C s a ∧ Meets step C (step s a) rest))

section
variable {step : σ → α → σ} {C D : σ → α → Prop} {P : σ → Prop}

@[simp] theorem runNil (s : σ) : run step s [] = s := rfl

@[simp] theorem runCons (s : σ) (a : α) (rest : List α) :
    run step s (a :: rest) = run step (step s a) rest := rfl

theorem runAppend (s : σ) (first rest : List α) :
    run step s (first ++ rest) = run step (run step s first) rest := List.foldl_append

theorem runInvariant (preserved : ∀ s a, P s → P (step s a)) {s : σ} (start : P s)
    (actions : List α) : P (run step s actions) := by
  induction actions generalizing s with
  | nil => exact start
  | cons a rest ih => exact ih (preserved s a start)

/-- The rule for a property that only steps meeting `C` keep. -/
theorem meetsInvariant (preserved : ∀ s a, C s a → P s → P (step s a)) {s : σ} (start : P s)
    {actions : List α} (meets : Meets step C s actions) : P (run step s actions) := by
  induction actions generalizing s with
  | nil => exact start
  | cons a rest ih => exact ih (preserved s a meets.1 start) meets.2

/- What an invariant grants every step. -/
theorem meetsAll (preserved : ∀ s a, P s → P (step s a)) (grants : ∀ s a, P s → C s a) {s : σ} (start : P s)
    (actions : List α) : Meets step C s actions := by
  induction actions generalizing s with
  | nil => trivial
  | cons a rest ih => exact ⟨grants s a start,ih (preserved s a start)⟩

theorem meetsAppend {s : σ} {first rest : List α} :
    Meets step C s (first ++ rest) ↔ Meets step C s first ∧ Meets step C (run step s first) rest := by
  induction first generalizing s with
  | nil => simp [Meets]
  | cons a first ih => simp only [List.cons_append,Meets,ih,runCons,and_assoc]

theorem meetsAnd {s : σ} {actions : List α} :
    Meets step (fun s a => C s a ∧ D s a) s actions ↔ Meets step C s actions ∧ Meets step D s actions := by
  induction actions generalizing s with
  | nil => exact (and_self_iff).symm
  | cons a rest ih => simp only [Meets,ih,and_and_and_comm]

/- Under an invariant, what a step meets can be weakened. -/
theorem meetsWeaken (preserved : ∀ s a, C s a → P s → P (step s a))
    (weaker : ∀ s a, P s → C s a → D s a) {s : σ} (start : P s) {actions : List α}
    (meets : Meets step C s actions) : Meets step D s actions := by
  induction actions generalizing s with
  | nil => trivial
  | cons a rest ih =>
    exact ⟨weaker s a start meets.1,ih (preserved s a meets.1 start) meets.2⟩

/- Under an invariant that one of two conditions keeps, the two may be exchanged. -/
theorem meetsCongr (preserved : ∀ s a, D s a → P s → P (step s a))
    (same : ∀ s a, P s → (C s a ↔ D s a)) {s : σ} (start : P s) {actions : List α} :
    Meets step C s actions ↔ Meets step D s actions := by
  constructor
  · exact meetsWeaken (fun s a meets h => preserved s a ((same s a h).mp meets) h)
      (fun s a h => (same s a h).mp) start
  · exact meetsWeaken preserved (fun s a h => (same s a h).mpr) start

/- A list of actions that are wanted in their order, with any others in between: each stage lasts
until its action is taken. -/
theorem stagesRun {Calm : α → Prop} {Stage : List α → σ → Prop}
    (keeps : ∀ wanted s a, Calm a → Stage wanted s → Stage wanted (step s a))
    (moves : ∀ wanted s a, Calm a → Stage (a :: wanted) s → Stage wanted (step s a)) {wanted actions : List α}
    (within : wanted.Sublist actions) (calm : ∀ a ∈ actions, Calm a) {s : σ} (here : Stage wanted s) :
    Stage [] (run step s actions) := by
  induction within generalizing s with
  | slnil => exact here
  | cons a _ ih =>
    obtain ⟨now,later⟩ := List.forall_mem_cons.mp calm
    exact ih later (keeps _ s a now here)
  | cons_cons a _ ih =>
    obtain ⟨now,later⟩ := List.forall_mem_cons.mp calm
    exact ih later (moves _ s a now here)

/- A property that each step either carries over or breaks, in so far as it meets `C`. -/
theorem meetsIff {Q : σ → Prop} (preserved : ∀ s a, P s → P (step s a))
    (carries : ∀ s a, P s → (Q (step s a) ↔ Q s ∧ C s a)) {s : σ} (start : P s) (actions : List α) :
    Q (run step s actions) ↔ Q s ∧ Meets step C s actions := by
  induction actions generalizing s with
  | nil => simp [Meets]
  | cons a rest ih => rw [runCons,ih (preserved s a start),carries s a start,Meets,and_assoc]

theorem alwaysCons {s : σ} {a : α} {rest : List α} :
    Always step P s (a :: rest) ↔ P s ∧ Always step P (step s a) rest := by
  constructor
  · intro all
    refine ⟨all [] List.nil_prefix,fun first front => ?_⟩
    exact all (a :: first) ((List.prefix_cons_inj a).mpr front)
  · rintro ⟨here,all⟩ first front
    cases first with
    | nil => exact here
    | cons b first =>
      obtain ⟨rfl,behind⟩ := List.cons_prefix_cons.mp front
      exact all first behind

/- An invariant that the steps meeting `C` keep. -/
theorem meetsAlways {I : σ → Prop} (keeps : ∀ s a, I s → C s a → I (step s a)) (sound : ∀ s, I s → P s)
    {s : σ} (inv : I s) {actions : List α} (meets : Meets step C s actions) : Always step P s actions := by
  induction actions generalizing s with
  | nil =>
    intro first front
    rw [List.prefix_nil.mp front]
    exact sound s inv
  | cons a rest ih => exact alwaysCons.mpr ⟨sound s inv,ih (keeps s a inv meets.1) meets.2⟩

/- And that the next state's `P` rules out losing. -/
theorem alwaysMeetsIff {I : σ → Prop} (keeps : ∀ s a, I s → C s a → I (step s a)) (sound : ∀ s, I s → P s)
    (breaks : ∀ s a, I s → P (step s a) → C s a) {s : σ} (inv : I s) (actions : List α) :
    Always step P s actions ↔ Meets step C s actions := by
  refine ⟨fun all => ?_,meetsAlways keeps sound inv⟩
  induction actions generalizing s with
  | nil => trivial
  | cons a rest ih =>
    obtain ⟨_,later⟩ := alwaysCons.mp all
    have here := breaks s a inv (later [] List.nil_prefix)
    exact ⟨here,ih (keeps s a inv here) later⟩

/- A property that each step keeps exactly in so far as it meets `C`. -/
theorem alwaysIff {I : σ → Prop} (preserved : ∀ s a, I s → I (step s a))
    (keeps : ∀ s a, I s → P s → (P (step s a) ↔ C s a)) {s : σ} (inv : I s) (start : P s) (actions : List α) :
    Always step P s actions ↔ Meets step C s actions := by
  refine alwaysMeetsIff (I := fun s => I s ∧ P s) ?_ (fun s both => both.2) ?_ ⟨inv,start⟩ actions
  · intro s a both meets
    exact ⟨preserved s a both.1,(keeps s a both.1 both.2).mpr meets⟩
  · intro s a both next
    exact (keeps s a both.1 both.2).mp next

/- Every entry of a log that only grows is good exactly when no step adds a bad one. -/
theorem meetsLog (log : σ → List τ) {Good : τ → Prop} (preserved : ∀ s a, P s → P (step s a))
    (grows : ∀ s a, P s → ∃ added, log (step s a) = log s ++ added ∧ (C s a ↔ ∀ x ∈ added, Good x))
    {s : σ} (start : P s) (actions : List α) :
    (∀ x ∈ log (run step s actions), Good x) ↔ (∀ x ∈ log s, Good x) ∧ Meets step C s actions := by
  induction actions generalizing s with
  | nil => simp [Meets]
  | cons a rest ih =>
    obtain ⟨added,same,good⟩ := grows s a start
    rw [runCons,ih (preserved s a start),same,Meets,good]
    simp only [List.mem_append,or_imp,forall_and,and_assoc]

end
end Ltsm.Library
