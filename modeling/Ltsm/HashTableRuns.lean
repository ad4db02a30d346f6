import Ltsm.HashTable

/-! Whole runs of the hash table against a plain map: the answers are those of the map, a loop over the
table goes through each of its entries once, and its growth is paid for by what was put into it. -/
namespace Ltsm.HashTable
open Library
variable {K V : Type}

namespace Table

def slots (t : Table K V) : Nat := t.numSlotsMinusOne.toNat + 1

/- In the empty state there are two chains for the one slot. -/
structure Sized (t : Table K V) (k : Nat) : Prop where
  low : 1 ≤ k
  high : k ≤ 63
  chains : t.entries.length = 2 ^ k
  shift : t.shift = 64 - k
  slots : t.slots = 2 ^ k ∨ t.numSlotsMinusOne = 0 ∧ t.entries.flatten = []

structure WellFormed (hash : K → UInt64) (t : Table K V) : Prop where
  sized : ∃ k, t.Sized k
  placed : Placed (t.place hash) t.entries
  once : (keysOf t.entries.flatten).Nodup
  counted : t.numElements = t.entries.flatten.length

variable {hash : K → UInt64} {t : Table K V} {key : K} {val : V} {n : UInt64}

theorem emptyFormed : WellFormed hash (empty : Table K V) where
  sized := ⟨1,le_rfl,by decide,rfl,rfl,.inr ⟨rfl,rfl⟩⟩
  placed := placedEmpty _ 2
  once := List.nodup_nil
  counted := rfl

namespace WellFormed

theorem room (formed : WellFormed hash t) (key : K) : t.place hash key < t.entries.length := by
  obtain ⟨k,sized⟩ := formed.sized
  rw [place,sized.chains,sized.shift]
  exact indexBelow sized.low sized.high

/- A single slot has no entries. -/
theorem unslotted (formed : WellFormed hash t) (zero : t.numSlotsMinusOne = 0) : t.entries.flatten = [] := by
  obtain ⟨k,sized⟩ := formed.sized
  rcases sized.slots with many | empty
  · rw [Table.slots,zero] at many
    have two : 2 ≤ 2 ^ k := Nat.le_self_pow (Nat.ne_of_gt sized.low) 2
    rw [← many] at two
    exact absurd two (by decide)
  · exact empty.2

theorem slotted (formed : WellFormed hash t) (nonzero : t.numSlotsMinusOne ≠ 0) :
    ∃ k, 1 ≤ k ∧ k ≤ 63 ∧ t.slots = 2 ^ k ∧ t.entries.length = t.slots := by
  obtain ⟨k,sized⟩ := formed.sized
  rcases sized.slots with many | empty
  · exact ⟨k,sized.low,sized.high,many,sized.chains.trans many.symm⟩
  · exact absurd empty.1 nonzero

section
variable [DecidableEq K]

theorem finds (formed : WellFormed hash t) (key : K) : t.find hash key = findKey t.entries.flatten key :=
  findPlaced formed.placed

theorem chained (formed : WellFormed hash t) (key : K) :
    key ∈ keysOf (t.chain hash key) ↔ key ∈ keysOf t.entries.flatten := by
  rw [← not_iff_not,← findKeyNone,← findKeyNone,← formed.finds key]
  rfl

end
end WellFormed

theorem predSucc {n : UInt64} (some : 1 ≤ n.toNat) : (n - 1).toNat + 1 = n.toNat := by
  rw [UInt64.toNat_sub_of_le _ _ (UInt64.le_iff_toNat_le.mpr (show (1 : UInt64).toNat ≤ n.toNat from some))]
  exact Nat.sub_add_cancel some

/- The entries of one table in the slots of another number. -/
theorem moved (formed : WellFormed hash t) (items : t.entries.flatten = [] ∨ t.numSlotsMinusOne ≠ 0) {k : Nat}
    (low : 1 ≤ k) (high : k ≤ 63) (power : n.toNat = 2 ^ k) :
    WellFormed hash {t with
        entries := spread (fun key => indexForHash (hash key) (64 - k)) (List.replicate n.toNat [])
          (if t.numSlotsMinusOne = 0 then [] else t.entries.flatten)
        numSlotsMinusOne := n - 1, shift := 64 - k} ∧
      (spread (fun key => indexForHash (hash key) (64 - k)) (List.replicate n.toNat [])
        (if t.numSlotsMinusOne = 0 then [] else t.entries.flatten)).flatten.Perm t.entries.flatten := by
  have same : (if t.numSlotsMinusOne = 0 then [] else t.entries.flatten) = t.entries.flatten := by
    split
    · rename_i zero
      exact (items.resolve_right (not_not.mpr zero)).symm
    · rfl
  rw [same]
  have perm := @spreadPerm K V (fun key => indexForHash (hash key) (64 - k)) (List.replicate n.toNat [])
    t.entries.flatten (by
      intro key
      rw [List.length_replicate,power]
      exact indexBelow low high)
  rw [List.flatten_replicate_nil,List.append_nil] at perm
  have length := predSucc (power ▸ Nat.one_le_two_pow : 1 ≤ n.toNat)
  refine ⟨?_,perm⟩
  exact {
    sized := ⟨k,low,high,by rw [spreadLength,List.length_replicate,power],rfl,.inl (length.trans power)⟩
    placed := placedSpread (placedEmpty _ _)
    once := (keysPerm perm).nodup_iff.mpr formed.once
    counted := formed.counted.trans perm.length_eq.symm}

/- A rehash keeps the entries, and has a slot for each. -/
structure Rehashed (hash : K → UInt64) (t : Table K V) (n : UInt64) (result : Table K V) : Prop where
  formed : WellFormed hash result
  perm : result.entries.flatten.Perm t.entries.flatten
  counted : result.numElements = t.numElements
  enough : n.toNat ≤ 2 ^ 63 → t.numElements ≤ result.slots ∧ n.toNat ≤ result.slots

theorem ofElements (few : t.numElements < 2 ^ 62) : (UInt64.ofNat t.numElements).toNat = t.numElements :=
  UInt64.toNat_ofNat_of_lt' (few.trans (by decide))

theorem bucketCountIs (formed : WellFormed hash t) : t.bucketCount.toNat = t.slots := by
  by_cases zero : t.numSlotsMinusOne = 0
  · rw [bucketCount,slots,zero]
    rfl
  · obtain ⟨k,_,high,power,_⟩ := formed.slotted zero
    have bound : t.slots < 2 ^ 64 := power ▸ Nat.pow_lt_pow_right (by decide) (Nat.lt_succ_of_le high)
    rw [bucketCount,UInt64.toNat_add]
    exact Nat.mod_eq_of_lt bound

theorem rehashed (formed : WellFormed hash t) (few : t.numElements < 2 ^ 62) (n : UInt64) :
    Rehashed hash t n (t.rehash hash n) := by
  have most : (max n (UInt64.ofNat t.numElements)).toNat = max n.toNat t.numElements := by
    rw [maxToNat,ofElements few]
  rw [rehash]
  dsimp only
  by_cases zero : max n (UInt64.ofNat t.numElements) = 0
  · rw [if_pos zero]
    rw [zero] at most
    have nothing : t.numElements = 0 := by
      have both := most.symm
      change max n.toNat t.numElements = 0 at both
      omega
    have bare : t.entries.flatten = [] := List.eq_nil_of_length_eq_zero (formed.counted.symm.trans nothing)
    refine ⟨emptyFormed,?_,nothing.symm,fun _ => ?_⟩
    · rw [bare]
      exact .refl _
    · have both := most.symm
      change max n.toNat t.numElements = 0 at both
      omega
  · rw [if_neg zero]
    obtain ⟨k,low,high,shift,power,least⟩ := nextSizeOverIs zero
    have enough : n.toNat ≤ 2 ^ 63 → t.numElements ≤ 2 ^ k ∧ n.toNat ≤ 2 ^ k := by
      intro small
      have fits : (2 : Nat) ^ 62 ≤ 2 ^ 63 := by decide
      obtain ⟨whole,_⟩ := least (by rw [most]; omega)
      rw [most] at whole
      omega
    rcases sizeOver : nextSizeOver (max n (UInt64.ofNat t.numElements)) with ⟨newPrimeIndex,numBuckets⟩
    rw [sizeOver] at shift power
    dsimp only at shift power ⊢
    subst shift
    by_cases same : numBuckets = t.bucketCount
    · rw [if_pos same]
      have slots : t.slots = 2 ^ k := by rw [← bucketCountIs formed,← same,power]
      exact ⟨formed,.refl _,rfl,slots.symm ▸ enough⟩
    · rw [if_neg same]
      have items : t.entries.flatten = [] ∨ t.numSlotsMinusOne ≠ 0 := by
        by_cases slotless : t.numSlotsMinusOne = 0
        · exact .inl (formed.unslotted slotless)
        · exact .inr slotless
      obtain ⟨formed,perm⟩ := moved formed items low high power
      refine ⟨formed,perm,rfl,fun small => ?_⟩
      obtain ⟨all,asked⟩ := enough small
      have slots : (numBuckets - 1).toNat + 1 = 2 ^ k := (predSucc (power ▸ Nat.one_le_two_pow)).trans power
      exact ⟨all.trans slots.ge,asked.trans slots.ge⟩

/- Twice the slots, and four at least. -/
theorem grown (formed : WellFormed hash t) (few : t.numElements < 2 ^ 62) (full : t.isFull = true) :
    WellFormed hash (t.grow hash) ∧ (t.grow hash).entries.flatten.Perm t.entries.flatten ∧
      (t.grow hash).numElements = t.numElements ∧ t.numElements ≤ (t.grow hash).slots ∧
        2 * t.slots ≤ (t.grow hash).slots ∧ (t.grow hash).numSlotsMinusOne ≠ 0 := by
  have small : t.slots ≤ 2 ^ 62 := by
    by_cases zero : t.numSlotsMinusOne = 0
    · rw [slots,zero]
      decide
    · rw [isFull,if_neg zero,decide_eq_true_iff] at full
      have slots : t.slots = t.numSlotsMinusOne.toNat + 1 := rfl
      omega
  have twice : (2 * t.bucketCount).toNat = 2 * t.slots := by
    have bound : 2 * t.slots < 2 ^ 64 := by omega
    rw [UInt64.toNat_mul,bucketCountIs formed]
    exact Nat.mod_eq_of_lt bound
  have asked : (max 4 (2 * t.bucketCount)).toNat = max 4 (2 * t.slots) := by
    rw [maxToNat,twice]
    rfl
  obtain ⟨formed,perm,counted,enough⟩ := rehashed formed few (max 4 (2 * t.bucketCount))
  obtain ⟨all,most⟩ := enough (by rw [asked]; omega)
  rw [asked] at most
  refine ⟨formed,perm,counted,all,(le_max_right _ _).trans most,fun zero => ?_⟩
  have four := (le_max_left 4 (2 * t.slots)).trans most
  have single : (t.grow hash).slots = 1 := by
    rw [slots,zero]
    rfl
  exact absurd (four.trans single.le) (by decide)

section
variable [DecidableEq K]

omit [DecidableEq K] in
/- A key that is not there goes to the front of its chain. -/
theorem pushed (formed : WellFormed hash t) (absent : key ∉ keysOf t.entries.flatten)
    (space : t.numSlotsMinusOne ≠ 0) :
    WellFormed hash {t with
        numElements := t.numElements + 1, entries := pushAt t.entries (t.place hash key) (key,val)} ∧
      (pushAt t.entries (t.place hash key) (key,val)).flatten.Perm ((key,val) :: t.entries.flatten) := by
  have perm := @pushPerm K V t.entries (t.place hash key) (key,val) (formed.room key)
  refine ⟨?_,perm⟩
  obtain ⟨k,sized⟩ := formed.sized
  exact {
    sized := by
      refine ⟨k,sized.low,sized.high,pushLength.trans sized.chains,sized.shift,?_⟩
      exact .inl (sized.slots.resolve_right fun empty => space empty.1)
    placed := placedPush formed.placed rfl
    once := (keysPerm perm).nodup_iff.mpr (List.nodup_cons.mpr ⟨absent,formed.once⟩)
    counted := by rw [perm.length_eq,List.length_cons,formed.counted]}

/- What one emplace answers, and leaves behind. -/
structure Emplaced (hash : K → UInt64) (key : K) (val : V) (t : Table K V) (result : Bool × Table K V) : Prop where
  formed : WellFormed hash result.2
  perm : result.2.entries.flatten.Perm (Library.emplace t.entries.flatten key val)
  answered : result.1 = decide (key ∉ keysOf t.entries.flatten)

theorem emplacesThere (formed : WellFormed hash t) (there : key ∈ keysOf t.entries.flatten) (fuel : Nat) :
    emplaceWithin hash key val (fuel + 1) t = some (false,t) := by
  rw [emplaceWithin,if_pos ((formed.chained key).mpr there)]

theorem emplacedThere (formed : WellFormed hash t) (there : key ∈ keysOf t.entries.flatten) :
    Emplaced hash key val t (false,t) where
  formed := formed
  perm := by
    rw [Library.emplace,if_pos there]
  answered := by simpa using there

theorem emplacesNew (formed : WellFormed hash t) (absent : key ∉ keysOf t.entries.flatten) (space : t.isFull = false)
    (fuel : Nat) : ∃ result, emplaceWithin hash key val (fuel + 1) t = some result ∧ Emplaced hash key val t result := by
  have slots : t.numSlotsMinusOne ≠ 0 := by
    intro zero
    rw [isFull,if_pos zero] at space
    cases space
  obtain ⟨formed',perm⟩ := @pushed K V hash t key val formed absent slots
  refine ⟨(true,_),?_,formed',?_,?_⟩
  · rw [emplaceWithin,if_neg fun there => absent ((formed.chained key).mp there),if_neg (by simp [space])]
  · rw [emplaceNew absent]
    exact perm.trans (List.perm_append_singleton _ _).symm
  · simpa using absent

/- A table that is full unasked before. -/
theorem emplacesGrown (formed : WellFormed hash t) (absent : key ∉ keysOf t.entries.flatten) (full : t.isFull = true)
    (fuel : Nat) : emplaceWithin hash key val (fuel + 1) t = emplaceWithin hash key val fuel (t.grow hash) := by
  rw [emplaceWithin,if_neg fun there => absent ((formed.chained key).mp there),if_pos full]

theorem emplacedPerm {t' : Table K V} {result : Bool × Table K V} (perm : t'.entries.flatten.Perm t.entries.flatten)
    (emplaced : Emplaced hash key val t' result) : Emplaced hash key val t result where
  formed := emplaced.formed
  perm := emplaced.perm.trans (emplacePerm perm)
  answered := by
    rw [emplaced.answered,decide_eq_decide,(keysPerm perm).mem_iff]

omit [DecidableEq K] in
theorem unfull (slots : t.numSlotsMinusOne ≠ 0) (space : t.numElements + 1 ≤ t.slots) : t.isFull = false := by
  rw [isFull,if_neg slots,decide_eq_false_iff_not,not_lt]
  exact space

/- However often it may try, after two growths it is done. -/
theorem emplaceReturns (formed : WellFormed hash t) (few : t.numElements < 2 ^ 62) (key : K) (val : V) (fuel : Nat) :
    ∃ result, emplaceWithin hash key val (fuel + 3) t = some result ∧ Emplaced hash key val t result := by
  by_cases there : key ∈ keysOf t.entries.flatten
  · exact ⟨_,emplacesThere formed there _,emplacedThere formed there⟩
  cases full : t.isFull with
  | false => exact emplacesNew formed there full _
  | true =>
    obtain ⟨formed1,perm1,counted1,enough1,_,slots1⟩ := grown formed few full
    have absent1 : key ∉ keysOf (t.grow hash).entries.flatten := fun also => there ((keysPerm perm1).mem_iff.mp also)
    rw [emplacesGrown formed there full]
    cases full1 : (t.grow hash).isFull with
    | false =>
      obtain ⟨result,made,emplaced⟩ := @emplacesNew K V hash _ key val _ formed1 absent1 full1 (fuel + 1)
      exact ⟨result,made,emplacedPerm perm1 emplaced⟩
    | true =>
      obtain ⟨formed2,perm2,counted2,_,twice,slots2⟩ := grown formed1 (counted1 ▸ few) full1
      have absent2 : key ∉ keysOf ((t.grow hash).grow hash).entries.flatten := fun also =>
        absent1 ((keysPerm perm2).mem_iff.mp also)
      have space : ((t.grow hash).grow hash).isFull = false := by
        refine unfull slots2 ?_
        have one : 1 ≤ (t.grow hash).slots := Nat.le_add_left 1 _
        omega
      rw [emplacesGrown formed1 absent1 full1]
      obtain ⟨result,made,emplaced⟩ := @emplacesNew K V hash _ key val _ formed2 absent2 space fuel
      exact ⟨result,made,emplacedPerm perm1 (emplacedPerm perm2 emplaced)⟩

theorem writtenFormed (formed : WellFormed hash t) (key : K) (val : V) :
    WellFormed hash (t.write hash key val) ∧ (t.write hash key val).entries.flatten = assign t.entries.flatten key val := by
  have flat : (t.write hash key val).entries.flatten = assign t.entries.flatten key val := assignFlatten formed.placed
  refine ⟨?_,flat⟩
  obtain ⟨k,sized⟩ := formed.sized
  exact {
    sized := by
      refine ⟨k,sized.low,sized.high,(List.length_modify ..).trans sized.chains,sized.shift,?_⟩
      refine sized.slots.imp_right fun empty => ⟨empty.1,?_⟩
      rw [flat,empty.2]
      rfl
    placed := placedAssign formed.placed
    once := by
      rw [flat,keysAssign]
      exact formed.once
    counted := by
      rw [flat,assign,List.length_map]
      exact formed.counted}

theorem erasedFormed (formed : WellFormed hash t) (key : K) :
    WellFormed hash (t.erase hash key).2 ∧
      (t.erase hash key).2.entries.flatten = t.entries.flatten.filter (·.1 ≠ key) ∧
      (t.erase hash key).1 = if key ∈ keysOf t.entries.flatten then 1 else 0 := by
  by_cases there : key ∈ keysOf t.entries.flatten
  · have flat : (t.entries.modify (t.place hash key) (eraseKey · key)).flatten = t.entries.flatten.filter (·.1 ≠ key) :=
      eraseFlatten formed.placed formed.once
    rw [erase,if_pos ((formed.chained key).mpr there),if_pos there]
    refine ⟨?_,flat,rfl⟩
    have once : (keysOf (t.entries.flatten.filter (·.1 ≠ key))).Nodup :=
      (List.filter_sublist.map Prod.fst).nodup formed.once
    obtain ⟨k,sized⟩ := formed.sized
    exact {
      sized := by
        refine ⟨k,sized.low,sized.high,(List.length_modify ..).trans sized.chains,sized.shift,?_⟩
        refine sized.slots.imp_right fun empty => ?_
        rw [empty.2] at there
        cases there
      placed := placedErase formed.placed
      once := by
        rw [flat]
        exact once
      counted := by
        rw [flat,← eraseKeyFilter formed.once]
        obtain ⟨x,inside,same⟩ := List.mem_map.mp there
        have one := List.length_eraseP_of_mem (p := fun x => decide (x.1 = key)) inside (decide_eq_true same)
        change t.numElements - 1 = _
        rw [formed.counted]
        exact one.symm}
  · rw [erase,if_neg fun also => there ((formed.chained key).mp also),if_neg there]
    refine ⟨formed,?_,rfl⟩
    symm
    rw [List.filter_eq_self]
    intro x inside
    have other : x.1 ≠ key := fun same => there (same ▸ memKeysOf inside)
    simpa using other

end

theorem clearedFormed (formed : WellFormed hash t) : WellFormed hash t.clear ∧ t.clear.entries.flatten = [] := by
  rw [clear]
  split
  · rename_i zero
    exact ⟨formed,formed.unslotted zero⟩
  · have flat : (t.entries.map fun _ => ([] : List (K × V))).flatten = [] := by simp
    refine ⟨?_,flat⟩
    obtain ⟨k,sized⟩ := formed.sized
    exact {
      sized := ⟨k,sized.low,sized.high,(List.length_map ..).trans sized.chains,sized.shift,
        sized.slots.imp_right fun empty => ⟨empty.1,flat⟩⟩
      placed := by
        rw [List.map_const']
        exact placedEmpty _ _
      once := by
        rw [flat]
        exact List.nodup_nil
      counted := by
        rw [flat]
        rfl}

/-! A loop over the table. -/

def below (t : Table K V) (slot : Nat) : List (K × V) := (t.entries.take slot).reverse.flatten

theorem belowSucc (t : Table K V) (slot : Nat) : t.below (slot + 1) = t.entries.getD slot [] ++ t.below slot := by
  rw [below,below,List.take_add_one]
  cases there : t.entries[slot]? with
  | none => simp [List.getD_eq_getElem?_getD,there]
  | some chain => simp [List.getD_eq_getElem?_getD,there]

theorem visitsSome {slot place fuel : Nat} {items : List (K × V)} (inside : place < (t.entries.getD slot []).length)
    (later : t.visits fuel (t.next slot place) = some items) :
    t.visits (fuel + 1) (some (slot,place)) = some ((t.entries.getD slot []).get ⟨place,inside⟩ :: items) := by
  have at' : (t.entries.getD slot [])[place]? = some ((t.entries.getD slot []).get ⟨place,inside⟩) :=
    List.getElem?_eq_getElem inside
  rw [visits,at']
  dsimp only
  rw [later]
  rfl

theorem visitsNone (fuel : Nat) : t.visits fuel none = some [] := by
  cases fuel <;> rfl

/- From a slot down, and within a chain to its end first. -/
theorem visitsBelow (t : Table K V) (slot : Nat) : ∀ fuel, (t.below slot).length ≤ fuel →
    t.visits fuel (t.slotBelow slot) = some (t.below slot) := by
  induction slot with
  | zero => exact fun fuel _ => visitsNone fuel
  | succ slot ih =>
    have chained : ∀ rest place fuel, place + rest + 1 = (t.entries.getD slot []).length →
        rest + 1 + (t.below slot).length ≤ fuel →
        t.visits fuel (some (slot,place)) = some ((t.entries.getD slot []).drop place ++ t.below slot) := by
      intro rest
      induction rest with
      | zero =>
        intro place fuel last enough
        obtain ⟨fuel,rfl⟩ : ∃ less, fuel = less + 1 := ⟨fuel - 1,by omega⟩
        have inside : place < (t.entries.getD slot []).length := by omega
        have next : t.next slot place = t.slotBelow slot := by rw [next,if_neg (by omega)]
        rw [visitsSome inside (next ▸ ih fuel (by omega)),List.drop_eq_getElem_cons inside,
          List.drop_of_length_le (by omega)]
        rfl
      | succ rest further =>
        intro place fuel last enough
        obtain ⟨fuel,rfl⟩ : ∃ less, fuel = less + 1 := ⟨fuel - 1,by omega⟩
        have inside : place < (t.entries.getD slot []).length := by omega
        have next : t.next slot place = some (slot,place + 1) := by rw [next,if_pos (by omega)]
        have later := further (place + 1) fuel (by omega) (by omega)
        rw [visitsSome inside (next ▸ later),List.drop_eq_getElem_cons inside]
        rfl
    intro fuel enough
    rw [belowSucc] at enough ⊢
    rw [slotBelow]
    by_cases bare : t.entries.getD slot [] = []
    · rw [if_pos bare,bare,List.nil_append]
      rw [bare,List.nil_append] at enough
      exact ih fuel enough
    · rw [if_neg bare]
      have some := List.length_pos_of_ne_nil bare
      rw [List.length_append] at enough
      exact chained ((t.entries.getD slot []).length - 1) 0 fuel (by omega) (by omega)

/- A loop comes to its end with all entries behind it. -/
theorem visitsAll (formed : WellFormed hash t) {fuel : Nat} (enough : t.numElements ≤ fuel) :
    ∃ items, t.visits fuel t.first = some items ∧ items.Perm t.entries.flatten := by
  have perm : (t.below t.slots).Perm t.entries.flatten := by
    by_cases zero : t.numSlotsMinusOne = 0
    · have bare := formed.unslotted zero
      have none : t.below t.slots = [] := by
        rw [List.flatten_eq_nil_iff] at bare
        rw [below,List.flatten_eq_nil_iff]
        exact fun chain among => bare chain (List.mem_of_mem_take (List.mem_reverse.mp among))
      rw [none,bare]
    · obtain ⟨_,_,_,_,length⟩ := formed.slotted zero
      rw [below,← length,List.take_length]
      exact (List.reverse_perm _).flatten
  exact ⟨_,visitsBelow t t.slots fuel (by rw [perm.length_eq,← formed.counted]; exact enough),perm⟩

end Table

/-! Runs. -/

inductive Op (K V : Type)
  | emplace (key : K) (val : V)
  | write (key : K) (val : V)
  | find (key : K)
  | erase (key : K)
  | clear
  | reserve (n : UInt64)
  | rehash (n : UInt64)
  | size
  deriving DecidableEq, Repr

inductive Answer (V : Type)
  | done
  | inserted (isNew : Bool)
  | found (val : Option V)
  | count (n : Nat)
  deriving DecidableEq, Repr

variable [DecidableEq K]

def Table.step (hash : K → UInt64) (t : Table K V) : Op K V → Option (Answer V × Table K V)
  | .emplace key val => (t.emplace hash key val).map fun result => (.inserted result.1,result.2)
  | .write key val => some (.done,t.write hash key val)
  | .find key => some (.found (t.find hash key),t)
  | .erase key => some (.count (t.erase hash key).1,(t.erase hash key).2)
  | .clear => some (.done,t.clear)
  | .reserve n => some (.done,t.reserve hash n)
  | .rehash n => some (.done,t.rehash hash n)
  | .size => some (.count t.numElements,t)

def Table.run (hash : K → UInt64) : List (Op K V) → Table K V → Option (List (Answer V) × Table K V)
  | [], t => some ([],t)
  | op :: ops, t =>
    match t.step hash op with
    | none => none
    | some (answer,t) => (run hash ops t).map fun rest => (answer :: rest.1,rest.2)

/- The same on a map. -/
def mapStep (m : List (K × V)) : Op K V → Answer V × List (K × V)
  | .emplace key val => (.inserted (decide (key ∉ keysOf m)),Library.emplace m key val)
  | .write key val => (.done,assign m key val)
  | .find key => (.found (findKey m key),m)
  | .erase key => (.count (if key ∈ keysOf m then 1 else 0),m.filter (·.1 ≠ key))
  | .clear => (.done,[])
  | .reserve _ => (.done,m)
  | .rehash _ => (.done,m)
  | .size => (.count m.length,m)

def mapRun : List (Op K V) → List (K × V) → List (Answer V) × List (K × V)
  | [], m => ([],m)
  | op :: ops, m =>
    let (answer,m) := mapStep m op
    let (answers,m) := mapRun ops m
    (answer :: answers,m)

/- The table holds the entries of the map, in an order of its own. -/
structure Stands (hash : K → UInt64) (t : Table K V) (m : List (K × V)) : Prop where
  formed : t.WellFormed hash
  perm : t.entries.flatten.Perm m

section
variable {hash : K → UInt64} {t : Table K V} {m : List (K × V)}

theorem stepStands (stands : Stands hash t m) (few : t.numElements < 2 ^ 62) (op : Op K V) :
    ∃ t', t.step hash op = some ((mapStep m op).1,t') ∧ Stands hash t' (mapStep m op).2 ∧
      t'.numElements ≤ t.numElements + 1 := by
  obtain ⟨formed,perm⟩ := stands
  have keys (key : K) : key ∈ keysOf t.entries.flatten ↔ key ∈ keysOf m := (keysPerm perm).mem_iff
  have sized (n : UInt64) : Stands hash (t.rehash hash n) m ∧ (t.rehash hash n).numElements ≤ t.numElements + 1 := by
    have kept := t.rehashed formed few n
    exact ⟨⟨kept.formed,kept.perm.trans perm⟩,kept.counted ▸ Nat.le_succ _⟩
  cases op with
  | emplace key val =>
    obtain ⟨result,made,emplaced⟩ := Table.emplaceReturns formed few key val 0
    have answered : result.1 = decide (key ∉ keysOf m) := by rw [emplaced.answered,decide_eq_decide,keys]
    refine ⟨result.2,?_,⟨emplaced.formed,emplaced.perm.trans (emplacePerm perm)⟩,?_⟩
    · rw [Table.step,Table.emplace,made,Option.map_some,answered]
      rfl
    · rw [emplaced.formed.counted,emplaced.perm.length_eq,formed.counted,Library.emplace]
      split
      · exact Nat.le_succ _
      · rw [List.length_append]
        exact le_rfl
  | write key val =>
    obtain ⟨also,flat⟩ := Table.writtenFormed formed key val
    refine ⟨_,rfl,⟨also,?_⟩,Nat.le_succ _⟩
    rw [flat]
    exact perm.map _
  | find key =>
    refine ⟨t,?_,⟨formed,perm⟩,Nat.le_succ _⟩
    rw [Table.step,formed.finds,findKeyPerm formed.once perm]
    rfl
  | erase key =>
    obtain ⟨also,flat,answered⟩ := Table.erasedFormed formed key
    refine ⟨_,?_,⟨also,?_⟩,?_⟩
    · rw [Table.step,answered]
      simp only [keys]
      rfl
    · rw [flat]
      exact perm.filter _
    · rw [also.counted,flat,formed.counted]
      exact (List.length_filter_le _ _).trans (Nat.le_succ _)
  | clear =>
    obtain ⟨also,flat⟩ := Table.clearedFormed formed
    refine ⟨_,rfl,⟨also,?_⟩,?_⟩
    · rw [flat]
      exact .refl _
    · rw [also.counted,flat]
      exact Nat.zero_le _
  | reserve n =>
    rw [Table.step,Table.reserve]
    split
    · exact ⟨t,rfl,⟨formed,perm⟩,Nat.le_succ _⟩
    · split
      · exact ⟨_,rfl,sized n⟩
      · exact ⟨t,rfl,⟨formed,perm⟩,Nat.le_succ _⟩
  | rehash n => exact ⟨_,rfl,sized n⟩
  | size =>
    refine ⟨t,?_,⟨formed,perm⟩,Nat.le_succ _⟩
    rw [Table.step,formed.counted,perm.length_eq]
    rfl

theorem runStands (stands : Stands hash t m) (ops : List (Op K V)) (few : t.numElements + ops.length ≤ 2 ^ 62) :
    ∃ t', Table.run hash ops t = some ((mapRun ops m).1,t') ∧ Stands hash t' (mapRun ops m).2 := by
  induction ops generalizing t m with
  | nil => exact ⟨t,rfl,stands⟩
  | cons op ops ih =>
    rw [List.length_cons] at few
    obtain ⟨next,made,kept,more⟩ := stepStands stands (by omega) op
    obtain ⟨last,ran,still⟩ := ih kept (by omega)
    refine ⟨last,?_,still⟩
    rw [Table.run,made]
    dsimp only
    rw [ran]
    rfl

end

omit [DecidableEq K] in
theorem emptyStands (hash : K → UInt64) : Stands hash (Table.empty : Table K V) [] := ⟨Table.emptyFormed,.refl _⟩

/- Whatever is done with a table, and whatever its hash is, it returns and answers as a map would. -/
theorem mapAnswers (hash : K → UInt64) (ops : List (Op K V)) (few : ops.length ≤ 2 ^ 62) :
    (Table.run hash ops Table.empty).map Prod.fst = some (mapRun ops []).1 := by
  obtain ⟨t,ran,_⟩ := runStands (emptyStands hash) ops ((Nat.zero_add _).trans_le few)
  rw [ran]
  rfl

theorem twoAnswer : (Table.run UInt64.ofNat [.emplace 7 70,.emplace 7 71,.erase 7,.find 7] Table.empty).map Prod.fst =
    some [.inserted true,.inserted false,.count 1,.found (none : Option Nat)] :=
  mapAnswers UInt64.ofNat [.emplace 7 70,.emplace 7 71,.erase 7,.find 7] (by decide)

/- At any time a loop over the table ends, and has then been at each entry of the map once. -/
theorem tableVisits (hash : K → UInt64) (ops : List (Op K V)) (few : ops.length ≤ 2 ^ 62) :
    ∃ t, (Table.run hash ops Table.empty).map Prod.snd = some t ∧ ∀ fuel, t.numElements ≤ fuel →
      ∃ items, t.visits fuel t.first = some items ∧ items.Perm (mapRun ops []).2 ∧ (keysOf items).Nodup := by
  obtain ⟨t,ran,stands⟩ := runStands (emptyStands hash) ops ((Nat.zero_add _).trans_le few)
  refine ⟨t,by rw [ran]; rfl,fun fuel enough => ?_⟩
  obtain ⟨items,all,perm⟩ := Table.visitsAll stands.formed enough
  exact ⟨items,all,perm.trans stands.perm,(keysPerm perm).nodup_iff.mpr stands.formed.once⟩

theorem twoVisited : ∃ t, (Table.run UInt64.ofNat [.emplace 7 70,.emplace 8 80] Table.empty).map Prod.snd = some t ∧
    ∀ fuel, t.numElements ≤ fuel →
      ∃ items, t.visits fuel t.first = some items ∧ items.Perm [(7,70),(8,80)] ∧ (keysOf items).Nodup :=
  tableVisits UInt64.ofNat [.emplace 7 70,.emplace 8 80] (by decide)

/-! What growing costs: the entries that are linked into another chain. -/

def Table.rehashMoves (t : Table K V) (numBuckets : UInt64) : Nat :=
  let numBuckets := max numBuckets (UInt64.ofNat t.numElements)
  if numBuckets = 0 ∨ (nextSizeOver numBuckets).2 = t.bucketCount ∨ t.numSlotsMinusOne = 0 then 0
  else t.entries.flatten.length

def Table.emplaceMoves (hash : K → UInt64) (key : K) : Nat → Table K V → Nat
  | 0, _ => 0
  | fuel + 1, t =>
    if key ∈ keysOf (t.chain hash key) then 0
    else if t.isFull then t.rehashMoves (max 4 (2 * t.bucketCount)) + emplaceMoves hash key fuel (t.grow hash)
    else 0

def Table.moves (hash : K → UInt64) (t : Table K V) : Op K V → Nat
  | .emplace key _ => t.emplaceMoves hash key 3
  | .reserve n => if n = 0 then 0 else if n > t.bucketCount then t.rehashMoves n else 0
  | .rehash n => t.rehashMoves n
  | _ => 0

def Table.runMoves (hash : K → UInt64) : List (Op K V) → Table K V → Nat
  | [], _ => 0
  | op :: ops, t =>
    match t.step hash op with
    | none => 0
    | some (_,next) => t.moves hash op + runMoves hash ops next

def Op.isEmplace : Op K V → Bool
  | .emplace _ _ => true
  | _ => false

/- Nobody but the table asks for slots. -/
def Op.unasked : Op K V → Bool
  | .reserve _ => false
  | .rehash _ => false
  | _ => true

/- What is in the table above half of its slots. -/
def Table.potential (t : Table K V) : Nat := 2 * t.numElements - t.slots

section
variable {hash : K → UInt64} {t : Table K V}

omit [DecidableEq K] in
theorem rehashMovesBound (formed : t.WellFormed hash) (n : UInt64) : t.rehashMoves n ≤ t.numElements := by
  rw [Table.rehashMoves]
  split
  · exact Nat.zero_le _
  · exact formed.counted.ge

/- Within its slots, a table has paid for its next growth before. -/
theorem emplacePaid (formed : t.WellFormed hash) (few : t.numElements < 2 ^ 62) (loaded : t.numElements ≤ t.slots)
    (key : K) (val : V) : ∃ result, t.emplace hash key val = some result ∧ result.2.WellFormed hash ∧
      result.2.numElements ≤ result.2.slots ∧ result.2.numElements ≤ t.numElements + 1 ∧
        t.emplaceMoves hash key 3 + result.2.potential ≤ t.potential + 2 := by
  by_cases there : key ∈ keysOf t.entries.flatten
  · refine ⟨_,Table.emplacesThere formed there 2,formed,loaded,Nat.le_succ _,?_⟩
    rw [Table.emplaceMoves,if_pos ((formed.chained key).mpr there),Nat.zero_add]
    exact Nat.le_add_right _ 2
  have absent : key ∉ keysOf (t.chain hash key) := fun also => there ((formed.chained key).mp also)
  cases full : t.isFull with
  | false =>
    have slotted : t.numSlotsMinusOne ≠ 0 ∧ t.numElements + 1 ≤ t.slots := by
      rw [Table.isFull] at full
      split at full
      · cases full
      · rename_i nonzero
        exact ⟨nonzero,not_lt.mp (of_decide_eq_false full)⟩
    refine ⟨_,by rw [Table.emplace,Table.emplaceWithin,if_neg absent,if_neg (by simp [full])],
      (Table.pushed formed there slotted.1).1,slotted.2,le_rfl,?_⟩
    rw [Table.emplaceMoves,if_neg absent,if_neg (by simp [full])]
    change 0 + (2 * (t.numElements + 1) - t.slots) ≤ 2 * t.numElements - t.slots + 2
    omega
  | true =>
    obtain ⟨formed1,perm1,counted1,_,twice,slots1⟩ := Table.grown formed few full
    have absent1 : key ∉ keysOf (t.grow hash).entries.flatten := fun also => there ((keysPerm perm1).mem_iff.mp also)
    have unchained : key ∉ keysOf ((t.grow hash).chain hash key) := fun also => absent1 ((formed1.chained key).mp also)
    have filled : t.rehashMoves (max 4 (2 * t.bucketCount)) ≤ t.potential := by
      by_cases zero : t.numSlotsMinusOne = 0
      · rw [Table.rehashMoves,if_pos (.inr (.inr zero))]
        exact Nat.zero_le _
      · rw [Table.isFull,if_neg zero,decide_eq_true_iff] at full
        have slots : t.slots = t.numSlotsMinusOne.toNat + 1 := rfl
        refine (rehashMovesBound formed _).trans ?_
        rw [Table.potential]
        omega
    have one : 1 ≤ t.slots := Nat.le_add_left 1 _
    have space : (t.grow hash).isFull = false := Table.unfull slots1 (by omega)
    refine ⟨(true,_),?_,(@Table.pushed K V hash _ key val formed1 absent1 slots1).1,?_,?_,?_⟩
    · rw [Table.emplace,Table.emplacesGrown formed there full,Table.emplaceWithin,if_neg unchained,
        if_neg (by simp [space])]
    · change (t.grow hash).numElements + 1 ≤ (t.grow hash).slots
      omega
    · change (t.grow hash).numElements + 1 ≤ t.numElements + 1
      omega
    · rw [Table.emplaceMoves,if_neg absent,if_pos full,Table.emplaceMoves,if_neg unchained,if_neg (by simp [space])]
      change t.rehashMoves _ + 0 + (2 * ((t.grow hash).numElements + 1) - (t.grow hash).slots) ≤ _
      omega

theorem stepPaid (formed : t.WellFormed hash) (few : t.numElements < 2 ^ 62) (loaded : t.numElements ≤ t.slots)
    {op : Op K V} (unasked : op.unasked = true) : ∃ answer next, t.step hash op = some (answer,next) ∧ next.WellFormed hash ∧
      next.numElements ≤ next.slots ∧ next.numElements ≤ t.numElements + 1 ∧
        t.moves hash op + next.potential ≤ t.potential + (if op.isEmplace then 2 else 0) := by
  have still : t.numElements ≤ t.numElements + 1 ∧ 0 + t.potential ≤ t.potential + 0 := ⟨Nat.le_succ _,(Nat.zero_add _).le⟩
  cases op with
  | emplace key val =>
    obtain ⟨result,made,formed,loaded,more,paid⟩ := emplacePaid formed few loaded key val
    exact ⟨.inserted result.1,result.2,by rw [Table.step,made]; rfl,formed,loaded,more,paid⟩
  | write key val =>
    obtain ⟨also,_⟩ := Table.writtenFormed formed key val
    exact ⟨_,_,rfl,also,loaded,still⟩
  | find key => exact ⟨_,_,rfl,formed,loaded,still⟩
  | erase key =>
    obtain ⟨also,_,_⟩ := Table.erasedFormed formed key
    have less : (t.erase hash key).2.numElements ≤ t.numElements ∧ (t.erase hash key).2.slots = t.slots := by
      rw [Table.erase]
      split
      · exact ⟨Nat.sub_le _ _,rfl⟩
      · exact ⟨le_rfl,rfl⟩
    refine ⟨_,_,rfl,also,?_,?_,?_⟩
    · omega
    · omega
    · change 0 + (2 * (t.erase hash key).2.numElements - (t.erase hash key).2.slots) ≤ 2 * t.numElements - t.slots + 0
      omega
  | clear =>
    obtain ⟨also,flat⟩ := Table.clearedFormed formed
    have none : t.clear.numElements = 0 := by rw [also.counted,flat]; rfl
    refine ⟨_,_,rfl,also,?_,?_,?_⟩
    · omega
    · omega
    · change 0 + (2 * t.clear.numElements - t.clear.slots) ≤ _
      omega
  | reserve n => cases unasked
  | rehash n => cases unasked
  | size => exact ⟨_,_,rfl,formed,loaded,still⟩

theorem runPaid (formed : t.WellFormed hash) (loaded : t.numElements ≤ t.slots) (ops : List (Op K V))
    (few : t.numElements + ops.length ≤ 2 ^ 62) (unasked : ∀ op ∈ ops, op.unasked = true) :
    t.runMoves hash ops ≤ t.potential + 2 * ops.countP Op.isEmplace := by
  induction ops generalizing t with
  | nil => exact Nat.zero_le _
  | cons op ops ih =>
    rw [List.length_cons] at few
    obtain ⟨answer,next,made,formed,loaded,more,paid⟩ := stepPaid formed (by omega) loaded (unasked op List.mem_cons_self)
    have later := ih formed loaded (by omega) fun op among => unasked op (List.mem_cons_of_mem _ among)
    rw [Table.runMoves,made,List.countP_cons]
    dsimp only
    split at paid
    · rename_i emplaces
      rw [if_pos emplaces]
      omega
    · rename_i other
      rw [if_neg other]
      omega

end

/- Where only the table itself asks for slots, entries are moved at most twice for each emplace. -/
theorem growthPaid (hash : K → UInt64) (ops : List (Op K V)) (few : ops.length ≤ 2 ^ 62)
    (unasked : ∀ op ∈ ops, op.unasked = true) :
    (Table.empty : Table K V).runMoves hash ops ≤ 2 * ops.countP Op.isEmplace := by
  have paid := runPaid (@Table.emptyFormed K V hash) (Nat.zero_le _) ops ((Nat.zero_add _).trans_le few) unasked
  exact paid.trans_eq (Nat.zero_add _)

theorem fivePaid : (Table.empty : Table Nat Nat).runMoves UInt64.ofNat
    [.emplace 1 0,.emplace 2 0,.emplace 3 0,.emplace 4 0,.emplace 5 0] ≤ 10 :=
  growthPaid UInt64.ofNat _ (by decide) (List.all_eq_true.mp rfl)

end Ltsm.HashTable
