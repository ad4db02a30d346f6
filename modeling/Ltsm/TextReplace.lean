import Ltsm.Library.Loops
import Ltsm.Library.Substrings

/-! Replacing in a text. The search starts over at the front of what has been written so
far, so the text that comes in, with what stands around it, is searched again. -/
namespace Ltsm.TextReplace
open Library

variable {α : Type} [DecidableEq α]

/- One round of the loop: the text as it is goes back out where nothing is found. -/
def replaceRound (pred val res : List α) : List α ⊕ List α :=
  match find pred res with
  | some pos => .inl (replaceAt pos pred.length val res)
  | none => .inr res

/- `Tools::replace` returns a text. -/
def Replaced (src pred val result : List α) : Prop := Returns (replaceRound pred val) src result

/- The leftmost occurrence is each time the next one of the source, and none is left. -/
structure Untouched (src pred val : List α) : Prop where
  next : ∀ count < src.length,
    replaceFirst pred val (substituted pred val count src) = substituted pred val (count + 1) src
  clean : find pred (substitute pred val src) = none

/- Of two occurrences of the pattern that overlap in more than the value, it is the same
which one is replaced. The pattern goes on with the value here. -/
def Steady (pred val : List α) : Prop :=
  val <+: pred → ∀ shift, 0 < shift → shift < pred.length - val.length → pred.drop shift <+: pred →
    (pred.drop val.length).take shift = pred.drop (pred.length - shift)

section
variable {src pred val res result before : List α}

theorem roundLeaves (absent : find pred res = none) : replaceRound pred val res = .inr res := by
  rw [replaceRound,absent]

theorem roundGoes (found : find pred res ≠ none) :
    replaceRound pred val res = .inl (replaceFirst pred val res) := by
  obtain ⟨pos,there⟩ := Option.ne_none_iff_exists'.mp found
  rw [replaceRound,replaceFirst,there]

/- Each round is the next replacement of the source, so the loop comes to the last one. -/
theorem untouchedReturns (untouched : Untouched src pred val) : Replaced src pred val (substitute pred val src) := by
  have goes (left : Nat) : left ≤ src.length →
      Returns (replaceRound pred val) (substituted pred val (src.length - left) src) (substitute pred val src) := by
    induction left with
    | zero => exact fun _ => returnsLeaves (roundLeaves untouched.clean)
    | succ left ih =>
      intro within
      have one := untouched.next (src.length - (left + 1)) (by omega)
      rw [show src.length - (left + 1) + 1 = src.length - left by omega] at one
      by_cases absent : find pred (substituted pred val (src.length - (left + 1)) src) = none
      · rw [replaceFirstNone absent] at one
        rw [one]
        exact ih (by omega)
      · refine (returnsGoes (roundGoes absent)).mpr ?_
        rw [one]
        exact ih (by omega)
  have all := goes src.length le_rfl
  rwa [Nat.sub_self] at all

/- What comes out has no occurrence. -/
theorem resultClean (returns : Replaced src pred val result) : find pred result = none := by
  refine returnsInvariant (I := fun _ => True) (P := fun r => find pred r = none) (fun _ _ _ _ => trivial)
    (fun res left _ leaves => ?_) trivial returns
  by_cases absent : find pred res = none
  · rw [roundLeaves absent] at leaves
    cases leaves
    exact absent
  · rw [roundGoes absent] at leaves
    cases leaves

/- The rounds go through the replacements of the source as long as each is the next one. -/
theorem roundsFollow (returns : Replaced src pred val result) (count : Nat)
    (next : ∀ k < count, replaceFirst pred val (substituted pred val k src) = substituted pred val (k + 1) src) :
    Replaced (substituted pred val count src) pred val result := by
  induction count with
  | zero => exact returns
  | succ count ih =>
    have here := ih fun k less => next k (Nat.lt_succ_of_lt less)
    have one := next count (Nat.lt_succ_self count)
    by_cases absent : find pred (substituted pred val count src) = none
    · rw [replaceFirstNone absent] at one
      rwa [← one]
    · rw [← one]
      exact (returnsGoes (roundGoes absent)).mp here

theorem occursFound (there : Occurs pred before res) : find pred res ≠ none :=
  fun absent => findNone.mp absent before there

/- Every round goes the same way at the first byte in which value and pattern differ. -/
theorem roundDiffers {a b : α} (other : Differs a b val pred) (found : find pred res ≠ none) :
    Differs a b (replaceFirst pred val res) res := by
  obtain ⟨pos,there⟩ := Option.ne_none_iff_exists'.mp found
  obtain ⟨front,after,split,rfl,_⟩ := findSome there
  obtain ⟨same,one,two⟩ := other
  refine ⟨front ++ same,?_,?_⟩
  · rw [replaceFirstFound split there,List.append_assoc,List.append_assoc,List.prefix_append_right_inj]
    exact one.trans (List.prefix_append _ _)
  · rw [split,List.append_assoc,List.append_assoc,List.prefix_append_right_inj]
    exact two.trans (List.prefix_append _ _)

theorem differsStays {a b : α} (apart : a ≠ b) (other : Differs a b val pred) {goal : List α}
    (off : Differs a b res goal) : ¬Replaced res pred val goal := by
  intro returns
  refine returnsInvariant (I := fun s => Differs a b s goal) (P := fun s => s ≠ goal)
    (fun s next inv goes => ?_) (fun s left inv leaves => ?_) off returns rfl
  · by_cases absent : find pred s = none
    · rw [roundLeaves absent] at goes
      cases goes
    · rw [roundGoes absent] at goes
      cases goes
      exact differsTrans apart (roundDiffers other absent) inv
  · by_cases absent : find pred s = none
    · rw [roundLeaves absent] at leaves
      cases leaves
      rintro rfl
      exact differsIrrefl apart inv
    · rw [roundGoes absent] at leaves
      cases leaves

end

/-! An occurrence that begins in front of the next one of the source. -/

section
variable {pred val text goal before after front shift rest : List α}

omit [DecidableEq α] in
/- It overlaps the next one, and the pattern repeats itself at that distance. -/
theorem overlapRepeats (overlap : pred ++ rest = shift ++ (pred ++ after)) (near : shift.length ≤ pred.length) :
    pred.drop shift.length <+: pred := by
  have behind := congrArg (List.drop shift.length) overlap
  rw [List.drop_append_of_le_length near,List.drop_left' rfl] at behind
  exact List.prefix_of_prefix_length_le (behind ▸ List.prefix_append _ _) (List.prefix_append pred after)
    (by simp)

omit [DecidableEq α] in
/- Which of the two is replaced makes no difference where the pattern is steady. -/
theorem overlapSame (steady : Steady pred val) (starts : val <+: pred) (moved : shift ≠ [])
    (overlap : pred ++ rest = shift ++ (pred ++ after)) (near : shift.length < pred.length - val.length) :
    val ++ rest = shift ++ (val ++ after) := by
  have repeats := overlapRepeats overlap (by omega)
  have same := steady starts shift.length (List.length_pos_iff.mpr moved) near repeats
  have tail : rest = pred.drop (pred.length - shift.length) ++ after := by
    have behind := congrArg (List.drop pred.length) overlap
    rw [List.drop_left' rfl,List.drop_append,List.drop_eq_nil_of_le (by omega),List.nil_append,
      List.drop_append_of_le_length (by omega)] at behind
    exact behind
  have head : shift ++ val = val ++ (pred.drop val.length).take shift.length := by
    obtain ⟨w,split⟩ := starts
    have long := congrArg List.length split
    rw [List.length_append] at long
    have begins := congrArg (List.take (shift.length + val.length)) overlap
    rw [List.take_append_of_le_length (by omega),List.take_length_add_append,List.take_append_of_le_length (by omega),
      ← split,List.take_left' rfl] at begins
    rw [← begins,← split,List.drop_left' rfl,Nat.add_comm,List.take_length_add_append]
  rw [tail,← same,← List.append_assoc,← head,List.append_assoc]

omit [DecidableEq α] in
/- The first byte in which the value differs from the pattern stays different from what the
text comes to. -/
theorem leadsAway {a b : α} (other : Differs a b val pred) (moved : shift ≠ [])
    (overlap : pred ++ rest = shift ++ (pred ++ after)) (most : front ++ shift ++ val <+: goal) :
    Differs a b (front ++ val ++ rest) goal := by
  obtain ⟨same,one,two⟩ := other
  have reach : shift ++ same <+: shift ++ val :=
    (List.prefix_append_right_inj _).mpr ((List.prefix_append _ _).trans one)
  have begins : same ++ [b] <+: shift ++ same := by
    have whole : shift ++ same <+: pred ++ rest := by
      rw [overlap,List.prefix_append_right_inj]
      exact ((List.prefix_append _ _).trans two).trans (List.prefix_append _ _)
    have longer := List.length_pos_iff.mpr moved
    refine List.prefix_of_prefix_length_le (two.trans (List.prefix_append pred rest)) whole ?_
    simp only [List.length_append,List.length_singleton]
    omega
  refine ⟨front ++ same,?_,?_⟩
  · rw [List.append_assoc,List.append_assoc,List.prefix_append_right_inj]
    exact one.trans (List.prefix_append _ _)
  · refine List.IsPrefix.trans ?_ most
    rw [List.append_assoc,List.append_assoc,List.prefix_append_right_inj]
    exact begins.trans reach

/- A replacement that is not the next one of the source leads away from it, or leaves an
occurrence there. -/
theorem stepKept (steady : Steady pred val) (split : text = before ++ pred ++ after) (most : before ++ val <+: goal)
    (returns : Replaced text pred val goal) : replaceFirst pred val text = before ++ val ++ after := by
  have clean := resultClean returns
  obtain found | ⟨front,shift,rest,moved,rfl,early,found⟩ := findLeftmost split
  · exact replaceFirstFound split found
  have gone : replaceFirst pred val text = front ++ val ++ rest := replaceFirstFound early found
  have overlap : pred ++ rest = shift ++ (pred ++ after) := by
    have both := early.symm.trans split
    simpa only [List.append_assoc,List.append_cancel_left_eq] using both
  rcases differsOrPrefix val pred with starts | holds | ⟨a,b,apart,other⟩
  · by_cases near : shift.length < pred.length - val.length
    · rw [gone,List.append_assoc,overlapSame steady starts moved overlap near]
      simp only [List.append_assoc]
    · have inside : pred <+: shift ++ val := by
        refine List.prefix_of_prefix_length_le (List.prefix_append pred rest) ?_
          (by rw [List.length_append]; omega)
        rw [overlap,List.prefix_append_right_inj]
        exact starts.trans (List.prefix_append _ _)
      have there : Occurs pred front goal := by
        refine List.IsPrefix.trans ?_ most
        rwa [List.append_assoc,List.prefix_append_right_inj]
      exact absurd clean (occursFound there)
  · have there : Occurs pred (front ++ shift) goal := ((List.prefix_append_right_inj _).mpr holds).trans most
    exact absurd clean (occursFound there)
  · have goes : Replaced (replaceFirst pred val text) pred val goal :=
      (returnsGoes (roundGoes (by rw [found]; exact nofun))).mp returns
    have off := leadsAway other moved overlap most
    rw [← gone] at off
    exact absurd goes (differsStays apart other off)

theorem returnsNext {src : List α} (steady : Steady pred val) (returns : Replaced src pred val (substitute pred val src))
    (count : Nat) (within : count < src.length) :
    replaceFirst pred val (substituted pred val count src) = substituted pred val (count + 1) src := by
  induction count using Nat.strongRecOn with
  | ind count ih =>
    have here := roundsFollow returns count fun k less => ih k less (by omega)
    obtain last | ⟨before,after,now,one,most⟩ := substitutedStep pred val src count
      (src.length - (count + 1))
    · have stopped : substituted pred val count src = substitute pred val src := by
        rw [substitute,← last (src.length - count),show count + (src.length - count) = src.length by omega]
      rw [last 1,replaceFirstNone (by rw [stopped]; exact resultClean returns)]
    · rw [show count + 1 + (src.length - (count + 1)) = src.length by omega] at most
      rw [one]
      exact stepKept steady now most here

end

/- The text comes back with each occurrence replaced once if the replacements make no
occurrence that is taken for the next one of the source; and only if, except for patterns
that overlap themselves in more than a value they begin with. -/
theorem replaceIff (src pred val : List α) :
    (Untouched src pred val → Replaced src pred val (substitute pred val src)) ∧
    (Steady pred val → Replaced src pred val (substitute pred val src) → Untouched src pred val) :=
  ⟨untouchedReturns,fun steady returns => ⟨returnsNext steady returns,resultClean returns⟩⟩

omit [DecidableEq α] in
/- A pattern whose first character stands in no other place does not overlap itself. -/
theorem markedSteady {c : α} {rest : List α} (once : c ∉ rest) (val : List α) : Steady (c :: rest) val := by
  intro _ shift positive near repeats
  obtain ⟨shift,rfl⟩ := Nat.exists_eq_succ_of_ne_zero (Nat.ne_of_gt positive)
  have longer : shift < rest.length := by
    rw [List.length_cons] at near
    omega
  rw [List.drop_succ_cons,List.drop_eq_getElem_cons longer,List.cons_prefix_cons] at repeats
  exact absurd (repeats.1 ▸ List.getElem_mem longer) once

theorem markedReplaceIff {c : α} {rest : List α} (once : c ∉ rest) (src val : List α) :
    Replaced src (c :: rest) val (substitute (c :: rest) val src) ↔ Untouched src (c :: rest) val :=
  ⟨(replaceIff src (c :: rest) val).2 (markedSteady once val),(replaceIff src (c :: rest) val).1⟩

/-! A value that holds the pattern, and one that completes it with what stands around. -/

theorem selfReplaceEndless (pred result : List α) : ¬Replaced pred pred pred result := by
  refine returnsNever (I := fun s => s = pred) (fun s here => ⟨pred,?_,rfl⟩) rfl result
  subst here
  have there : s = [] ++ s ++ [] := by simp
  obtain found | ⟨front,shift,rest,moved,empty,_⟩ := findLeftmost there
  · rw [roundGoes (by rw [found]; exact nofun),replaceFirstFound there found]
    simp
  · exact absurd (List.append_eq_nil_iff.mp empty.symm).2 moved

def userMark : List Char := "%{user}".toList

theorem completedAgain : Replaced "%{%{user}}".toList userMark "user".toList "user".toList ∧
    substitute userMark "user".toList "%{%{user}}".toList = userMark ∧
    ¬∀ src pred val : List Char, pred ≠ [] → Replaced src pred val (substitute pred val src) := by
  have comes : Replaced "%{%{user}}".toList userMark "user".toList "user".toList := ⟨3,by decide⟩
  have once : substitute userMark "user".toList "%{%{user}}".toList = userMark := by decide
  refine ⟨comes,once,fun right => ?_⟩
  have again := returnsOnce (once ▸ right _ userMark "user".toList (by decide)) comes
  exact absurd again (by decide)

end Ltsm.TextReplace
