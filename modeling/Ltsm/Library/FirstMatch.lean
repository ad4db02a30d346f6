import Mathlib.Data.List.Forall2
import Mathlib.Data.List.Perm.Basic

/-! Lists that change in one place: the first element that matches is the one that is
found, changed or taken out, or one element moves while the others stay. -/
namespace Ltsm.Library
variable {α : Type*} {p : α → Bool} {f : α → α}

def updateFirst (p : α → Bool) (f : α → α) : List α → List α
  | [] => []
  | a :: rest => if p a then f a :: rest else a :: updateFirst p f rest

theorem memUpdateFirst {l : List α} {x : α} (inside : x ∈ updateFirst p f l) :
    x ∈ l ∨ ∃ a ∈ l, p a = true ∧ x = f a := by
  induction l with
  | nil => exact .inl inside
  | cons a rest ih =>
    cases found : p a with
    | true =>
      rw [updateFirst,if_pos found] at inside
      rcases List.mem_cons.mp inside with rfl | later
      · exact .inr ⟨a,List.mem_cons_self,found,rfl⟩
      · exact .inl (List.mem_cons_of_mem _ later)
    | false =>
      rw [updateFirst,if_neg (by simp [found])] at inside
      rcases List.mem_cons.mp inside with rfl | later
      · exact .inl List.mem_cons_self
      rcases ih later with old | ⟨b,hb,match_,same⟩
      · exact .inl (List.mem_cons_of_mem _ old)
      · exact .inr ⟨b,List.mem_cons_of_mem _ hb,match_,same⟩

theorem permErase {l : List α} {a : α} (found : l.find? p = some a) : l.Perm (a :: l.eraseP p) := by
  induction l with
  | nil => simp at found
  | cons b rest ih =>
    cases here : p b with
    | true =>
      rw [List.find?_cons_of_pos here] at found
      cases Option.some.inj found
      rw [List.eraseP_cons_of_pos here]
    | false =>
      rw [List.find?_cons_of_neg (by simp [here])] at found
      rw [List.eraseP_cons_of_neg (by simp [here])]
      exact ((ih found).cons b).trans (List.Perm.swap a b _)

theorem permUpdate {l : List α} {a : α} (found : l.find? p = some a) :
    (updateFirst p f l).Perm (f a :: l.eraseP p) := by
  induction l with
  | nil => simp at found
  | cons b rest ih =>
    cases here : p b with
    | true =>
      rw [List.find?_cons_of_pos here] at found
      cases Option.some.inj found
      rw [updateFirst,if_pos here,List.eraseP_cons_of_pos here]
    | false =>
      rw [List.find?_cons_of_neg (by simp [here])] at found
      rw [updateFirst,if_neg (by simp [here]),List.eraseP_cons_of_neg (by simp [here])]
      exact ((ih found).cons b).trans (List.Perm.swap (f a) b _)

theorem updateAbsent {l : List α} (absent : l.find? p = none) : updateFirst p f l = l := by
  induction l with
  | nil => rfl
  | cons a rest ih =>
    obtain ⟨here,later⟩ := List.forall_mem_cons.mp (List.find?_eq_none.mp absent)
    rw [updateFirst,if_neg here,ih (List.find?_eq_none.mpr later)]

theorem memUpdateFound {l : List α} {x : α} (inside : x ∈ updateFirst p f l) :
    x ∈ l ∨ ∃ a, l.find? p = some a ∧ x = f a := by
  cases found : l.find? p with
  | none => exact .inl (updateAbsent found ▸ inside)
  | some a =>
    rcases List.mem_cons.mp ((permUpdate found).mem_iff.mp inside) with rfl | rest
    · exact .inr ⟨a,rfl,rfl⟩
    · exact .inl (List.mem_of_mem_eraseP rest)

theorem updateSame {l : List α} (same : ∀ a, l.find? p = some a → f a = a) : updateFirst p f l = l := by
  induction l with
  | nil => rfl
  | cons a rest ih =>
    rw [updateFirst]
    split
    · rename_i here
      rw [same a (List.find?_cons_of_pos here)]
    · rename_i other
      rw [ih fun b found => same b ((List.find?_cons_of_neg other).trans found)]

theorem foundSame {l : List α} {a : α} (same : updateFirst p f l = l) (found : l.find? p = some a) : f a = a := by
  induction l with
  | nil => simp at found
  | cons b rest ih =>
    rw [updateFirst] at same
    split at same
    · rename_i here
      rw [List.find?_cons_of_pos here] at found
      cases Option.some.inj found
      exact (List.cons.inj same).1
    · rename_i other
      rw [List.find?_cons_of_neg other] at found
      exact ih (List.cons.inj same).2 found

theorem mapUpdate {β : Type*} {g : α → β} (keeps : ∀ a, g (f a) = g a) (l : List α) :
    (updateFirst p f l).map g = l.map g := by
  induction l with
  | nil => rfl
  | cons a rest ih =>
    rw [updateFirst]
    split
    · rw [List.map_cons,List.map_cons,keeps]
    · rw [List.map_cons,List.map_cons,ih]

theorem lengthUpdate (l : List α) : (updateFirst p f l).length = l.length := by
  induction l with
  | nil => rfl
  | cons a rest ih =>
    rw [updateFirst]
    split
    · rfl
    · exact congrArg Nat.succ ih

/- How many elements meet `q`, before and after the first match is changed or taken out. -/
theorem countUpdate {l : List α} {a : α} (found : l.find? p = some a) (q : α → Bool) :
    (updateFirst p f l).countP q + (if q a then 1 else 0) = l.countP q + if q (f a) then 1 else 0 := by
  rw [(permUpdate found).countP_eq,(permErase found).countP_eq,List.countP_cons,List.countP_cons]
  omega

theorem countKept {q : α → Bool} (keeps : ∀ a, q (f a) = q a) (l : List α) :
    (updateFirst p f l).countP q = l.countP q := by
  cases found : l.find? p with
  | none => rw [updateAbsent found]
  | some a =>
    have moved := countUpdate (f := f) found q
    rw [keeps] at moved
    omega

theorem findUpdate {q : α → Bool} (keeps : ∀ a, p a = true → q a = false ∧ q (f a) = false) (l : List α) :
    (updateFirst p f l).find? q = l.find? q := by
  induction l with
  | nil => rfl
  | cons a rest ih =>
    rw [updateFirst]
    split
    · rename_i here
      obtain ⟨before,after⟩ := keeps a here
      rw [List.find?_cons_of_neg (by simp [after]),List.find?_cons_of_neg (by simp [before])]
    · rw [List.find?_cons,List.find?_cons,ih]

theorem countErase {l : List α} {a : α} (found : l.find? p = some a) (q : α → Bool) :
    (l.eraseP p).countP q + (if q a then 1 else 0) = l.countP q := by
  rw [(permErase found).countP_eq,List.countP_cons]

theorem countAbsent {l : List α} (absent : l.find? p = none) : l.countP p = 0 :=
  List.countP_eq_zero.mpr (List.find?_eq_none.mp absent)

theorem countFound {l : List α} {a : α} (found : l.find? p = some a) : 0 < l.countP p :=
  List.countP_pos_iff.mpr ⟨a,List.mem_of_find?_eq_some found,List.find?_some found⟩

theorem permAt {l : List α} {a : α} {i : Nat} (there : l[i]? = some a) : l.Perm (a :: l.eraseIdx i) := by
  obtain ⟨inside,rfl⟩ := List.getElem?_eq_some_iff.mp there
  exact (List.getElem_cons_eraseIdx_perm inside).symm

theorem permSet {l : List α} {a : α} {i : Nat} (there : l[i]? = some a) (b : α) :
    (l.set i b).Perm (b :: l.eraseIdx i) := by
  obtain ⟨inside,_⟩ := List.getElem?_eq_some_iff.mp there
  have set : (l.set i b)[i]? = some b := by simp [inside]
  have perm := permAt set
  rw [List.eraseIdx_set_eq] at perm
  exact perm

/- Emptying the first match takes out what it stood for. -/
theorem filterMapUpdate {β : Type*} {g : α → Option β} {q : β → Bool} (same : ∀ a, p a = (g a).any q)
    (emptied : ∀ a, g (f a) = none) (l : List α) : (updateFirst p f l).filterMap g = (l.filterMap g).eraseP q := by
  induction l with
  | nil => rfl
  | cons a rest ih =>
    rw [updateFirst,List.filterMap_cons]
    cases image : g a with
    | none =>
      have other : ¬p a = true := by simp [same,image]
      rw [if_neg other,List.filterMap_cons,image]
      exact ih
    | some b =>
      have here : p a = q b := by rw [same,image,Option.any_some]
      rw [here]
      split
      · rename_i match_
        rw [List.filterMap_cons,emptied]
        exact (List.eraseP_cons_of_pos match_).symm
      · rename_i other
        rw [List.filterMap_cons,image]
        exact (congrArg (b :: ·) ih).trans (List.eraseP_cons_of_neg other).symm

/- Taking out the first match of `p` takes out all matches of a narrower `q` exactly when the first
match is one of them, and the only one. -/
theorem eraseAllIff {q : α → Bool} (narrower : ∀ x, q x = true → p x = true) (l : List α) :
    l.eraseP p = l.filter (fun x => ! q x) ↔ ∀ a, l.find? p = some a → q a = true ∧ l.countP q = 1 := by
  cases found : l.find? p with
  | none =>
    have absent := List.find?_eq_none.mp found
    have kept : l.filter (fun x => ! q x) = l := by
      refine List.filter_eq_self.mpr fun x inside => ?_
      have unmatched : q x ≠ true := fun matched => absent x inside (narrower x matched)
      simp [unmatched]
    simp [List.eraseP_of_forall_not absent,kept]
  | some a =>
    simp only [Option.some.injEq,forall_eq']
    constructor
    · intro same
      have left : (l.eraseP p).countP q = 0 := by
        rw [same]
        exact List.countP_eq_zero.mpr fun x inside => by simpa using (List.mem_filter.mp inside).2
      have cut : (l.eraseP p).length = l.length - 1 :=
        List.length_eraseP_of_mem (List.mem_of_find?_eq_some found) (List.find?_some found)
      have parts := List.length_eq_countP_add_countP q (l := l)
      have rest : (l.filter fun x => ! q x).length = l.countP fun x => ! q x := List.countP_eq_length_filter.symm
      have some : 0 < l.length := List.length_pos_of_mem (List.mem_of_find?_eq_some found)
      have total := countErase found q
      have negated : (l.countP fun x => ! q x) = l.countP fun x => decide ¬ q x = true := by
        congr 1
        funext x
        simp
      rw [same,rest,negated] at cut
      have one : l.countP q = 1 := by omega
      rw [left,one,Nat.zero_add] at total
      exact ⟨of_not_not fun other => by simp [other] at total,one⟩
    · rintro ⟨here,only⟩
      obtain ⟨matched,before,behind,rfl,clear⟩ := List.find?_eq_some_iff_append.mp found
      have early : ∀ x ∈ before, ¬ p x = true := fun x inside => by simpa using clear x inside
      have none : before.countP q = 0 :=
        List.countP_eq_zero.mpr fun x inside there => early x inside (narrower x there)
      rw [List.countP_append,List.countP_cons_of_pos here,none] at only
      have later : behind.countP q = 0 := by omega
      have first : before.filter (fun x => ! q x) = before :=
        List.filter_eq_self.mpr fun x inside => by simpa using List.countP_eq_zero.mp none x inside
      have last : behind.filter (fun x => ! q x) = behind :=
        List.filter_eq_self.mpr fun x inside => by simpa using List.countP_eq_zero.mp later x inside
      rw [List.eraseP_append_right _ early,List.eraseP_cons_of_pos matched,List.filter_append,
        List.filter_cons_of_neg (by simp [here]),first,last]

/- Where no two elements share a key, the first match is the only one. -/
theorem eraseUnique {κ : Type*} [DecidableEq κ] {key : α → κ} {l : List α} (k : κ) (apart : (l.map key).Nodup) :
    l.eraseP (fun a => key a = k) = l.filter fun a => key a ≠ k := by
  induction l with
  | nil => rfl
  | cons a rest ih =>
    obtain ⟨alone,later⟩ := List.nodup_cons.mp apart
    by_cases here : key a = k
    · have cut : (a :: rest).eraseP (fun b => key b = k) = rest := List.eraseP_cons_of_pos (decide_eq_true here)
      have gone : (a :: rest).filter (fun b => key b ≠ k) = rest.filter fun b => key b ≠ k :=
        List.filter_cons_of_neg (by simp [here])
      rw [cut,gone]
      refine (List.filter_eq_self.mpr fun b inside => ?_).symm
      exact decide_eq_true fun same => alone (List.mem_map.mpr ⟨b,inside,same.trans here.symm⟩)
    · have passed : (a :: rest).eraseP (fun b => key b = k) = a :: rest.eraseP fun b => key b = k :=
        List.eraseP_cons_of_neg (by simp [here])
      have stays : (a :: rest).filter (fun b => key b ≠ k) = a :: rest.filter fun b => key b ≠ k :=
        List.filter_cons_of_pos (decide_eq_true here)
      rw [passed,stays,ih later]

section
variable {β : Type*} {R : α → β → Prop} {l : List α} {m : List β} {b : β}

theorem forallSource (related : List.Forall₂ R l m) (inside : b ∈ m) : ∃ a ∈ l, R a b := by
  induction related with
  | nil => simp at inside
  | cons here rest ih =>
    rcases List.mem_cons.mp inside with rfl | later
    · exact ⟨_,List.mem_cons_self,here⟩
    · obtain ⟨a,there,moved⟩ := ih later
      exact ⟨a,List.mem_cons_of_mem _ there,moved⟩

theorem forallTarget {a : α} (related : List.Forall₂ R l m) (inside : a ∈ l) : ∃ b ∈ m, R a b :=
  forallSource (R := flip R) related.flip inside

theorem forallModify {R : α → α → Prop} (stays : ∀ a, R a a) {i : Nat}
    (moves : ∀ a, l[i]? = some a → R a (f a)) : List.Forall₂ R l (l.modify i f) := by
  induction l generalizing i with
  | nil =>
    rw [List.modify_nil]
    exact .nil
  | cons a rest ih =>
    cases i with
    | zero =>
      rw [List.modify_zero_cons]
      exact .cons (moves a rfl) (List.forall₂_same.mpr fun b _ => stays b)
    | succ i =>
      rw [List.modify_succ_cons]
      exact .cons (stays a) (ih moves)

end
end Ltsm.Library
