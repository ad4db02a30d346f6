import Mathlib.Data.List.Sort
import Mathlib.Data.List.Nodup

/-! Maps as lists of entries, in the manner of the C++ maps: the first value of a key stays,
whatever is emplaced later. An ordered map is gone through in the order of its keysOf. -/
namespace Ltsm.Library
variable {K V R : Type*}

def keysOf (entries : List (K × V)) : List K := entries.map Prod.fst

section
variable [DecidableEq K]

def emplace (entries : List (K × V)) (key : K) (val : V) : List (K × V) :=
  if key ∈ keysOf entries then entries else entries ++ [(key,val)]

def emplaceAll (entries items : List (K × V)) : List (K × V) :=
  items.foldl (fun entries item => emplace entries item.1 item.2) entries

/- The value of a key that is there already. -/
def assign (entries : List (K × V)) (key : K) (val : V) : List (K × V) :=
  entries.map fun entry => if entry.1 = key then (key,val) else entry

def findKey (entries : List (K × V)) (key : K) : Option V := (entries.find? (·.1 = key)).map Prod.snd

end

/- From the upper bound of a key to the end of the map. -/
def above [LinearOrder R] (rank : K → R) (key : K) (entries : List (K × V)) : List (K × V) :=
  (entries.insertionSort fun a b => rank a.1 ≤ rank b.1).dropWhile fun entry => rank entry.1 ≤ rank key

section
variable {entries items : List (K × V)} {key : K} {val : V} {x : K × V}

theorem memKeysOf (inside : x ∈ entries) : x.1 ∈ keysOf entries := List.mem_map_of_mem inside

theorem keyUnique (once : (keysOf entries).Nodup) {y : K × V} (first : x ∈ entries) (second : y ∈ entries)
    (same : x.1 = y.1) : x = y := List.inj_on_of_nodup_map once first second same

section
variable [DecidableEq K]

theorem memEmplace : x ∈ emplace entries key val ↔ x ∈ entries ∨ x = (key,val) ∧ key ∉ keysOf entries := by
  rw [emplace]
  split
  · rename_i there
    simp [there]
  · rename_i absent
    simp [absent]

theorem keysEmplace (once : (keysOf entries).Nodup) : (keysOf (emplace entries key val)).Nodup := by
  rw [emplace]
  split
  · exact once
  · rename_i absent
    rw [keysOf,List.map_append]
    exact List.Nodup.append once (List.nodup_singleton _) (by simpa [keysOf] using absent)

theorem keysEmplaceAll (once : (keysOf entries).Nodup) : (keysOf (emplaceAll entries items)).Nodup := by
  induction items generalizing entries with
  | nil => exact once
  | cons item items ih => exact ih (keysEmplace once)

theorem memEmplaceAll (inside : x ∈ emplaceAll entries items) : x ∈ entries ∨ x ∈ items := by
  induction items generalizing entries with
  | nil => exact .inl inside
  | cons item items ih =>
    rcases ih inside with before | later
    · rcases memEmplace.mp before with old | ⟨rfl,_⟩
      · exact .inl old
      · exact .inr List.mem_cons_self
    · exact .inr (List.mem_cons_of_mem _ later)

/- Where no key comes twice nothing is left out. -/
theorem emplaceAllDistinct (once : (keysOf (entries ++ items)).Nodup) : emplaceAll entries items = entries ++ items := by
  induction items generalizing entries with
  | nil => rw [List.append_nil]; rfl
  | cons item items ih =>
    have split : entries ++ item :: items = (entries ++ [item]) ++ items := by simp
    have absent : item.1 ∉ keysOf entries := by
      rw [keysOf,List.map_append,List.nodup_append] at once
      intro there
      exact once.2.2 _ there _ List.mem_cons_self rfl
    rw [emplaceAll,List.foldl_cons,emplace,if_neg absent]
    rw [split] at once ⊢
    exact ih once

theorem keyEmplaced : key ∈ keysOf (emplace entries key val) := by
  rw [emplace]
  split
  · assumption
  · exact List.mem_map.mpr ⟨(key,val),List.mem_append_right _ List.mem_cons_self,rfl⟩

theorem emplaceNew (absent : key ∉ keysOf entries) : emplace entries key val = entries ++ [(key,val)] := if_neg absent

theorem findKeyNew (absent : key ∉ keysOf entries) : findKey (entries ++ [(key,val)]) key = some val := by
  have before : entries.find? (·.1 = key) = none := by
    rw [List.find?_eq_none]
    intro x inside same
    exact absent (of_decide_eq_true same ▸ memKeysOf inside)
  rw [findKey,List.find?_append,before]
  simp

theorem findKeyNone : findKey entries key = none ↔ key ∉ keysOf entries := by
  rw [findKey,Option.map_eq_none_iff,List.find?_eq_none,keysOf,List.mem_map]
  constructor
  · rintro absent ⟨x,inside,rfl⟩
    exact absent x inside (decide_eq_true rfl)
  · exact fun absent x inside same => absent ⟨x,inside,of_decide_eq_true same⟩

theorem findKeyCons (x : K × V) (entries : List (K × V)) (key : K) :
    findKey (x :: entries) key = if x.1 = key then some x.2 else findKey entries key := by
  rw [findKey,List.find?_cons]
  by_cases same : x.1 = key
  · simp [same]
  · simp [same,findKey]

theorem findKeyAppend (entries items : List (K × V)) (key : K) :
    findKey (entries ++ items) key = (findKey entries key).or (findKey items key) := by
  rw [findKey,findKey,findKey,List.find?_append]
  cases entries.find? (·.1 = key) <;> simp

theorem findKeyOther {k : K} (other : k ≠ key) (entries : List (K × V)) :
    findKey (entries ++ [(key,val)]) k = findKey entries k := by
  have nothing : findKey ([] : List (K × V)) k = none := rfl
  rw [findKeyAppend,findKeyCons,if_neg (Ne.symm other),nothing,Option.or_none]

theorem findKeyEmplace (entries : List (K × V)) (key : K) (val : V) (k : K) :
    findKey (emplace entries key val) k = if k = key then some ((findKey entries key).getD val) else findKey entries k := by
  rw [emplace]
  split
  · rename_i there
    cases found : findKey entries key with
    | none => exact absurd there (findKeyNone.mp found)
    | some old =>
      split
      · rename_i same
        rw [same,found]
        rfl
      · rfl
  · rename_i absent
    split
    · rename_i same
      rw [same,findKeyNew absent,findKeyNone.mpr absent]
      rfl
    · rename_i other
      exact findKeyOther other entries

theorem keysAssign : keysOf (assign entries key val) = keysOf entries := by
  rw [keysOf,assign,List.map_map]
  refine List.map_congr_left fun x _ => ?_
  rw [Function.comp_apply]
  split
  · rename_i same
    exact same.symm
  · rfl

theorem findKeyAssign (entries : List (K × V)) (key : K) (val : V) (k : K) :
    findKey (assign entries key val) k =
      if k = key then (findKey entries key).map fun _ => val else findKey entries k := by
  induction entries with
  | nil => simp [assign,findKey]
  | cons x entries ih =>
    have shape : assign (x :: entries) key val = (if x.1 = key then (key,val) else x) :: assign entries key val := rfl
    rw [shape,findKeyCons,findKeyCons,findKeyCons,ih]
    by_cases here : x.1 = key
    · rw [if_pos here,if_pos here]
      by_cases same : k = key
      · simp [same]
      · simp [same,Ne.symm same,here]
    · rw [if_neg here,if_neg here]
      by_cases same : k = key
      · simp [same,here]
      · simp [same]

theorem findKeyIff (once : (keysOf entries).Nodup) : findKey entries key = some val ↔ (key,val) ∈ entries := by
  rw [findKey,Option.map_eq_some_iff]
  constructor
  · rintro ⟨⟨found,val⟩,first,rfl⟩
    have same : found = key := by simpa using List.find?_some first
    exact same ▸ List.mem_of_find?_eq_some first
  · intro inside
    cases first : entries.find? (·.1 = key) with
    | none =>
      have other := List.find?_eq_none.mp first _ inside
      simp at other
    | some entry =>
      have same : entry.1 = key := by simpa using List.find?_some first
      have only := keyUnique once (List.mem_of_find?_eq_some first) inside same
      exact ⟨entry,rfl,congrArg Prod.snd only⟩

end

variable [LinearOrder R] {rank : K → R}

theorem aboveNodup (once : entries.Nodup) : (above rank key entries).Nodup :=
  (List.dropWhile_sublist _).nodup ((List.perm_insertionSort _ entries).nodup_iff.mpr once)

/- In a list in order, what lies above stands behind all the rest. -/
theorem memDropBelow {bound : R} (sorted : entries.Pairwise fun a b => rank a.1 ≤ rank b.1) :
    x ∈ entries.dropWhile (fun entry => rank entry.1 ≤ bound) ↔ x ∈ entries ∧ bound < rank x.1 := by
  induction entries with
  | nil => simp
  | cons first rest ih =>
    obtain ⟨higher,sorted⟩ := List.pairwise_cons.mp sorted
    by_cases below : rank first.1 ≤ bound
    · rw [List.dropWhile_cons_of_pos (by simpa using below),ih sorted,List.mem_cons]
      constructor
      · exact fun both => ⟨.inr both.1,both.2⟩
      · rintro ⟨rfl | inside,up⟩
        · exact absurd up (not_lt.mpr below)
        · exact ⟨inside,up⟩
    · rw [List.dropWhile_cons_of_neg (by simpa using below)]
      refine ⟨fun inside => ⟨inside,?_⟩,And.left⟩
      rcases List.mem_cons.mp inside with rfl | later
      · exact not_le.mp below
      · exact (not_le.mp below).trans_le (higher x later)

theorem memAbove : x ∈ above rank key entries ↔ x ∈ entries ∧ rank key < rank x.1 := by
  have total : Std.Total fun a b : K × V => rank a.1 ≤ rank b.1 := ⟨fun a b => le_total _ _⟩
  have trans : IsTrans (K × V) fun a b => rank a.1 ≤ rank b.1 := ⟨fun _ _ _ => le_trans⟩
  rw [above,memDropBelow (List.pairwise_insertionSort _ entries),List.mem_insertionSort]

end
end Ltsm.Library
