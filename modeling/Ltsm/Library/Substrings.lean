import Mathlib.Data.List.Infix

/-! Occurrences of a pattern in a text: the leftmost one, the text with that one replaced,
and the text with the first occurrences replaced that do not overlap, each once. -/
namespace Ltsm.Library
variable {α : Type*}

def replaceAt (pos count : Nat) (val text : List α) : List α := text.take pos ++ val ++ text.drop (pos + count)

/- The pattern stands in the text behind the given part. -/
def Occurs (pred before text : List α) : Prop := before ++ pred <+: text

section
variable {pred val text before : List α} {pos : Nat}

theorem occursCons {c : α} {rest : List α} : Occurs pred before (c :: rest) ↔
    before = [] ∧ pred <+: c :: rest ∨ ∃ front, before = c :: front ∧ Occurs pred front rest := by
  cases before with
  | nil => simp [Occurs]
  | cons d front =>
    simp only [Occurs,List.cons_append,List.cons_prefix_cons,List.cons_ne_nil,false_and,false_or,List.cons.injEq]
    constructor
    · rintro ⟨rfl,there⟩
      exact ⟨front,⟨rfl,rfl⟩,there⟩
    · rintro ⟨other,⟨rfl,rfl⟩,there⟩
      exact ⟨rfl,there⟩

theorem replaceAtSplit (before after : List α) :
    replaceAt before.length pred.length val (before ++ pred ++ after) = before ++ val ++ after := by
  have rest : (before ++ pred ++ after).drop (before.length + pred.length) = after :=
    List.drop_left' List.length_append
  rw [replaceAt,rest,List.append_assoc before pred,List.take_left' rfl]

end

/-! Two texts at the first place where they differ. -/

/- The one has `a` where the other has `b`, behind the same front. -/
def Differs (a b : α) (s t : List α) : Prop := ∃ front, front ++ [a] <+: s ∧ front ++ [b] <+: t

section
variable {a b : α} {s t r : List α}

theorem differsIrrefl (other : a ≠ b) : ¬Differs a b s s := by
  rintro ⟨front,one,two⟩
  have same : front ++ [a] = front ++ [b] :=
    (List.prefix_of_prefix_length_le one two (by simp)).eq_of_length (by simp)
  exact other (by simpa using same)

theorem differsTrans (other : a ≠ b) (one : Differs a b s t) (two : Differs a b t r) : Differs a b s r := by
  obtain ⟨front,here,there⟩ := one
  obtain ⟨back,low,high⟩ := two
  -- the place of the shorter front decides
  rcases Nat.lt_trichotomy front.length back.length with less | same | more
  · have inside : front ++ [b] <+: back :=
      List.prefix_of_prefix_length_le there ((List.prefix_append back [a]).trans low)
        (by simp; omega)
    exact ⟨front,here,inside.trans ((List.prefix_append back [b]).trans high)⟩
  · have equal : front ++ [b] = back ++ [a] :=
      (List.prefix_of_prefix_length_le there low (by simp [same])).eq_of_length (by simp [same])
    have last := (List.append_inj equal same).2
    exact absurd (List.singleton_inj.mp last).symm other
  · have inside : back ++ [a] <+: front :=
      List.prefix_of_prefix_length_le low ((List.prefix_append front [b]).trans there)
        (by simp; omega)
    exact ⟨back,inside.trans ((List.prefix_append front [a]).trans here),high⟩

/- Neither of two lists goes on where the other one ends. -/
theorem differsOrPrefix (s t : List α) : s <+: t ∨ t <+: s ∨ ∃ a b, a ≠ b ∧ Differs a b s t := by
  induction s generalizing t with
  | nil => exact .inl List.nil_prefix
  | cons x s ih =>
    cases t with
    | nil => exact .inr (.inl List.nil_prefix)
    | cons y t =>
      by_cases same : x = y
      · subst same
        rcases ih t with less | more | ⟨a,b,other,front,one,two⟩
        · exact .inl (List.cons_prefix_cons.mpr ⟨rfl,less⟩)
        · exact .inr (.inl (List.cons_prefix_cons.mpr ⟨rfl,more⟩))
        · exact .inr (.inr ⟨a,b,other,x :: front,List.cons_prefix_cons.mpr ⟨rfl,one⟩,
            List.cons_prefix_cons.mpr ⟨rfl,two⟩⟩)
      · exact .inr (.inr ⟨x,y,same,[],by simp,by simp⟩)

end

section
variable [DecidableEq α]

/-! The leftmost occurrence. -/

def find (pred : List α) : List α → Option Nat
  | [] => if pred = [] then some 0 else none
  | c :: rest => if pred.isPrefixOf (c :: rest) then some 0 else (find pred rest).map (· + 1)

def replaceFirst (pred val text : List α) : List α :=
  match find pred text with
  | none => text
  | some pos => replaceAt pos pred.length val text

/- The first `count` occurrences; what has been put in is not looked at again. -/
def substituted (pred val : List α) : Nat → List α → List α
  | 0, text => text
  | count + 1, text =>
    match find pred text with
    | none => text
    | some pos => text.take pos ++ val ++ substituted pred val count (text.drop (pos + pred.length))

def substitute (pred val text : List α) : List α := substituted pred val text.length text

variable {pred val text before : List α} {pos : Nat}

theorem findNone : find pred text = none ↔ ∀ before, ¬Occurs pred before text := by
  induction text with
  | nil =>
    by_cases empty : pred = []
    · simp [find,Occurs,empty]
    · simp [find,Occurs,empty]
  | cons c rest ih =>
    by_cases here : pred <+: c :: rest
    · rw [find,if_pos (List.isPrefixOf_iff_prefix.mpr here)]
      exact ⟨nofun,fun none => absurd (occursCons.mpr (.inl ⟨rfl,here⟩)) (none [])⟩
    · rw [find,if_neg (by rwa [List.isPrefixOf_iff_prefix]),Option.map_eq_none_iff,ih]
      constructor
      · intro none before there
        obtain ⟨_,there⟩ | ⟨front,_,there⟩ := occursCons.mp there
        · exact here there
        · exact none front there
      · exact fun none front there => none (c :: front) (occursCons.mpr (.inr ⟨front,rfl,there⟩))

theorem findSome (found : find pred text = some pos) :
    ∃ before after, text = before ++ pred ++ after ∧ before.length = pos ∧
      ∀ other, Occurs pred other text → pos ≤ other.length := by
  induction text generalizing pos with
  | nil =>
    by_cases empty : pred = []
    · rw [find,if_pos empty] at found
      cases found
      exact ⟨[],[],by simp [empty],rfl,fun _ _ => Nat.zero_le _⟩
    · rw [find,if_neg empty] at found
      cases found
  | cons c rest ih =>
    by_cases here : pred <+: c :: rest
    · rw [find,if_pos (List.isPrefixOf_iff_prefix.mpr here)] at found
      cases found
      obtain ⟨after,split⟩ := here
      exact ⟨[],after,by simpa using split.symm,rfl,fun _ _ => Nat.zero_le _⟩
    · rw [find,if_neg (by rwa [List.isPrefixOf_iff_prefix])] at found
      obtain ⟨next,later,rfl⟩ := Option.map_eq_some_iff.mp found
      obtain ⟨before,after,split,place,first⟩ := ih later
      refine ⟨c :: before,after,by simp [split],by simp [place],fun other there => ?_⟩
      obtain ⟨_,this⟩ | ⟨front,rfl,behind⟩ := occursCons.mp there
      · exact absurd this here
      · exact Nat.succ_le_succ (first front behind)

/- An occurrence is the leftmost one or has the leftmost one in front. -/
theorem findLeftmost {after : List α} (there : text = before ++ pred ++ after) :
    find pred text = some before.length ∨
    ∃ front shift rest, shift ≠ [] ∧ before = front ++ shift ∧ text = front ++ pred ++ rest ∧
      find pred text = some front.length := by
  have occurs : Occurs pred before text := there ▸ List.prefix_append _ _
  cases found : find pred text with
  | none => exact absurd occurs (findNone.mp found before)
  | some pos =>
    obtain ⟨front,rest,split,place,first⟩ := findSome found
    have early := first before occurs
    have part : front <+: before := by
      have shorter : front <+: text := by
        rw [split,List.append_assoc]
        exact List.prefix_append _ _
      have longer : before <+: text := by
        rw [there,List.append_assoc]
        exact List.prefix_append _ _
      exact List.prefix_of_prefix_length_le shorter longer (by omega)
    obtain ⟨shift,rfl⟩ := part
    rw [← place]
    by_cases same : shift = []
    · left
      simp [same]
    · exact .inr ⟨front,shift,rest,same,rfl,split,rfl⟩

theorem replaceFirstNone (absent : find pred text = none) : replaceFirst pred val text = text := by
  rw [replaceFirst,absent]

theorem replaceFirstFound {after : List α} (split : text = before ++ pred ++ after)
    (found : find pred text = some before.length) : replaceFirst pred val text = before ++ val ++ after := by
  rw [replaceFirst,found,split]
  exact replaceAtSplit before after

theorem substitutedNone (absent : find pred text = none) (count : Nat) : substituted pred val count text = text := by
  cases count with
  | zero => rfl
  | succ count => rw [substituted,absent]

theorem substitutedFound {after : List α} (split : text = before ++ pred ++ after)
    (found : find pred text = some before.length) (count : Nat) :
    substituted pred val (count + 1) text = before ++ val ++ substituted pred val count after := by
  have rest : text.drop (before.length + pred.length) = after := by
    rw [split]
    exact List.drop_left' List.length_append
  have front : text.take before.length = before := by
    rw [split,List.append_assoc]
    exact List.take_left' rfl
  rw [substituted,found]
  simp only [rest,front]

/- A text has no more occurrences apart than characters. -/
theorem substitutedMore (something : pred ≠ []) {count : Nat} (enough : text.length ≤ count) :
    substituted pred val count text = substitute pred val text := by
  unfold substitute
  generalize size : text.length = n at enough
  induction n using Nat.strongRecOn generalizing text count with
  | ind n ih =>
    cases found : find pred text with
    | none => rw [substitutedNone found,substitutedNone found]
    | some pos =>
      obtain ⟨before,after,split,rfl,_⟩ := findSome found
      have long : 0 < pred.length := List.length_pos_iff.mpr something
      have less : before.length + pred.length + after.length = n := by
        rw [← size,split,List.length_append,List.length_append]
      obtain ⟨n,rfl⟩ := Nat.exists_eq_succ_of_ne_zero (show n ≠ 0 by omega)
      obtain ⟨count,rfl⟩ := Nat.exists_eq_succ_of_ne_zero (show count ≠ 0 by omega)
      rw [substitutedFound split found,substitutedFound split found,
        ih after.length (by omega) rfl (show after.length ≤ count by omega),
        ih after.length (by omega) rfl (show after.length ≤ n by omega)]

theorem substituteNone (absent : find pred text = none) : substitute pred val text = text :=
  substitutedNone absent _

/- The leftmost occurrence is replaced, and then those behind it. -/
theorem substituteFound {after : List α} (something : pred ≠ []) (split : text = before ++ pred ++ after)
    (found : find pred text = some before.length) :
    substitute pred val text = before ++ val ++ substitute pred val after := by
  rw [← substitutedMore something (Nat.le_succ text.length),substitutedFound split found]
  have shorter : after.length ≤ text.length := by
    rw [split]
    exact List.length_append ▸ Nat.le_add_left _ _
  rw [substitutedMore something shorter]

/- One more occurrence: either none is left, or it lies behind what stays as it is. -/
theorem substitutedStep (pred val text : List α) (count more : Nat) :
    (∀ later, substituted pred val (count + later) text = substituted pred val count text) ∨
    ∃ before after, substituted pred val count text = before ++ pred ++ after ∧
      substituted pred val (count + 1) text = before ++ val ++ after ∧
      before ++ val <+: substituted pred val (count + 1 + more) text := by
  induction count generalizing text with
  | zero =>
    cases found : find pred text with
    | none => exact .inl fun later => by rw [substitutedNone found,substitutedNone found]
    | some pos =>
      obtain ⟨before,after,split,rfl,_⟩ := findSome found
      refine .inr ⟨before,after,split,substitutedFound split found 0,?_⟩
      rw [show 0 + 1 + more = more + 1 by omega,substitutedFound split found]
      exact List.prefix_append _ _
  | succ count ih =>
    cases found : find pred text with
    | none => exact .inl fun later => by rw [substitutedNone found,substitutedNone found]
    | some pos =>
      obtain ⟨front,rest,split,rfl,_⟩ := findSome found
      have next (n : Nat) : substituted pred val (n + 1) text = front ++ val ++ substituted pred val n rest :=
        substitutedFound split found n
      obtain last | ⟨before,after,now,one,most⟩ := ih rest
      · refine .inl fun later => ?_
        rw [show count + 1 + later = count + later + 1 by omega,next,next,last]
      · refine .inr ⟨front ++ val ++ before,after,?_,?_,?_⟩
        · rw [next,now]
          simp only [List.append_assoc]
        · rw [next,one]
          simp only [List.append_assoc]
        · rw [show count + 1 + 1 + more = count + 1 + more + 1 by omega,next,List.append_assoc,
            List.prefix_append_right_inj]
          exact most

end

end Ltsm.Library
