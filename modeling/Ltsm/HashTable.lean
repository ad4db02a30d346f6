import Ltsm.Library.Chains
import Mathlib.Algebra.Group.Nat.Defs

/-! The hash table behind the colour maps, the palettes and the JSON objects: chains of entries in a
power of two of slots, more slots as soon as there would be more entries than slots. -/
namespace Ltsm.HashTable
open Library

def smear (value : UInt64) : UInt64 :=
  let value := value ||| value >>> 1
  let value := value ||| value >>> 2
  let value := value ||| value >>> 4
  let value := value ||| value >>> 8
  let value := value ||| value >>> 16
  value ||| value >>> 32

def log2Table : List Nat :=
  [63,0,58,1,59,47,53,2,
    60,39,48,27,54,33,42,3,
    61,51,37,40,49,18,28,20,
    55,30,34,11,43,14,22,4,
    62,57,46,52,38,26,32,41,
    50,36,17,19,29,10,13,21,
    56,45,25,31,35,16,9,12,
    44,24,15,8,23,7,6,5]

def log2 (value : UInt64) : Nat :=
  log2Table.getD (((smear value - smear value >>> 1) * 0x07EDD5E59A4E28C2) >>> 58).toNat 0

def nextPowerOfTwo (i : UInt64) : UInt64 := smear (i - 1) + 1

/-! The policy of `fibonacci_hash_policy`. -/

def indexForHash (hash : UInt64) (shift : Nat) : Nat :=
  ((11400714819323198485 * hash) >>> UInt64.ofNat shift).toNat

/- The shift of the new size, and the size. -/
def nextSizeOver (size : UInt64) : Nat × UInt64 :=
  let size := max 2 (nextPowerOfTwo size)
  (64 - log2 size,size)

/- A bit is set where one of the `n` bits from its own on is. -/
def Covers (n x y : Nat) : Prop := ∀ i, y.testBit i = true ↔ ∃ j < n, x.testBit (i + j) = true

theorem coversTwice {n x y : Nat} (covers : Covers n x y) : Covers (n + n) x (y ||| y >>> n) := by
  intro i
  rw [Nat.testBit_or,Nat.testBit_shiftRight,Bool.or_eq_true,covers i,covers (n + i)]
  constructor
  · intro either
    rcases either with ⟨j,small,set⟩ | ⟨j,small,set⟩
    · exact ⟨j,by omega,set⟩
    · exact ⟨n + j,by omega,by rwa [show i + (n + j) = n + i + j by omega]⟩
  · intro one
    obtain ⟨j,small,set⟩ := one
    by_cases low : j < n
    · exact .inl ⟨j,low,set⟩
    · exact .inr ⟨j - n,by omega,by rwa [show n + i + (j - n) = i + j by omega]⟩

theorem smearCovers (value : UInt64) : Covers 64 value.toNat (smear value).toNat := by
  have one : Covers 1 value.toNat value.toNat := by
    intro i
    constructor
    · exact fun set => ⟨0,Nat.zero_lt_one,set⟩
    · intro some
      obtain ⟨j,small,set⟩ := some
      rwa [Nat.lt_one_iff.mp small,Nat.add_zero] at set
  have all := coversTwice (coversTwice (coversTwice (coversTwice (coversTwice (coversTwice one)))))
  simpa [smear,UInt64.toNat_or,UInt64.toNat_shiftRight] using all

/- From the highest bit down all bits are set. -/
theorem smearToNat {value : UInt64} (nonzero : value ≠ 0) : (smear value).toNat = 2 ^ (value.toNat.log2 + 1) - 1 := by
  have positive : value.toNat ≠ 0 := fun zero => nonzero (UInt64.toNat_inj.mp zero)
  have bound : value.toNat.log2 < 64 := (Nat.log2_lt positive).mpr value.toNat_lt
  apply Nat.eq_of_testBit_eq
  intro i
  rw [Nat.testBit_two_pow_sub_one,Bool.eq_iff_iff,smearCovers value i,decide_eq_true_iff]
  constructor
  · intro set
    obtain ⟨j,_,set⟩ := set
    have below := Nat.ge_two_pow_of_testBit set
    have low := (Nat.le_log2 positive).mpr below
    omega
  · intro low
    refine ⟨value.toNat.log2 - i,by omega,?_⟩
    rw [show i + (value.toNat.log2 - i) = value.toNat.log2 by omega]
    exact Nat.testBit_log2 positive

theorem deBruijn : ∀ b : Fin 64,
    log2Table.getD ((UInt64.ofNat (2 ^ b.val) * 0x07EDD5E59A4E28C2) >>> 58).toNat 0 = b.val := by decide +kernel

theorem log2Is {value : UInt64} (nonzero : value ≠ 0) : log2 value = value.toNat.log2 := by
  have positive : value.toNat ≠ 0 := fun zero => nonzero (UInt64.toNat_inj.mp zero)
  have bound : value.toNat.log2 < 64 := (Nat.log2_lt positive).mpr value.toNat_lt
  have top : smear value - smear value >>> 1 = UInt64.ofNat (2 ^ value.toNat.log2) := by
    apply UInt64.toNat_inj.mp
    have half : (smear value >>> 1).toNat = (smear value).toNat / 2 := by
      rw [UInt64.toNat_shiftRight]
      exact Nat.shiftRight_eq_div_pow _ 1
    have lower : smear value >>> 1 ≤ smear value := by
      rw [UInt64.le_iff_toNat_le,half]
      exact Nat.div_le_self _ _
    rw [UInt64.toNat_sub_of_le _ _ lower,half,smearToNat nonzero,
      UInt64.toNat_ofNat_of_lt' (Nat.pow_lt_pow_right (by decide) bound),Nat.pow_succ]
    have some : 0 < 2 ^ value.toNat.log2 := Nat.two_pow_pos _
    omega
  rw [log2,top]
  exact deBruijn ⟨_,bound⟩

/- The next power of two, zero if it has no place in 64 bits. -/
theorem nextPowerOfTwoIs {i : UInt64} (more : 1 < i.toNat) :
    (nextPowerOfTwo i).toNat = 2 ^ ((i.toNat - 1).log2 + 1) % 18446744073709551616 := by
  have less : (i - 1).toNat = i.toNat - 1 := by
    rw [UInt64.toNat_sub_of_le _ _ (UInt64.le_iff_toNat_le.mpr (by change 1 ≤ i.toNat; omega))]
    rfl
  have nonzero : i - 1 ≠ 0 := by
    intro zero
    rw [zero] at less
    change 0 = i.toNat - 1 at less
    omega
  have some : 0 < 2 ^ ((i.toNat - 1).log2 + 1) := Nat.two_pow_pos _
  rw [nextPowerOfTwo,UInt64.toNat_add,smearToNat nonzero,less]
  change (2 ^ ((i.toNat - 1).log2 + 1) - 1 + 1) % 2 ^ 64 = _
  rw [Nat.sub_add_cancel some]

theorem maxToNat (a b : UInt64) : (max a b).toNat = max a.toNat b.toNat := by
  rw [UInt64.max_def]
  split
  · rename_i below
    exact (max_eq_right (UInt64.le_iff_toNat_le.mp below)).symm
  · rename_i above
    exact (max_eq_left (le_of_lt (UInt64.lt_iff_toNat_lt.mp (UInt64.not_le.mp above)))).symm

/- A size with its shift is a power of two, and not below what was asked for while there is one. -/
theorem nextSizeOverIs {size : UInt64} (some : size ≠ 0) :
    ∃ k, 1 ≤ k ∧ k ≤ 63 ∧ (nextSizeOver size).1 = 64 - k ∧ (nextSizeOver size).2.toNat = 2 ^ k ∧
      (size.toNat ≤ 2 ^ 63 → size.toNat ≤ 2 ^ k ∧ (2 < size.toNat → 2 ^ k < 2 * size.toNat)) := by
  have positive : size.toNat ≠ 0 := fun zero => some (UInt64.toNat_inj.mp zero)
  have shape : ∀ k, 1 ≤ k → k ≤ 63 → (max 2 (nextPowerOfTwo size)).toNat = 2 ^ k →
      (nextSizeOver size).1 = 64 - k ∧ (nextSizeOver size).2.toNat = 2 ^ k := by
    intro k low high power
    have nonzero : max 2 (nextPowerOfTwo size) ≠ 0 := by
      intro zero
      rw [zero] at power
      exact absurd power (Nat.two_pow_pos k).ne
    refine ⟨?_,power⟩
    rw [nextSizeOver,log2Is nonzero,power,Nat.log2_two_pow]
  have larger : (max 2 (nextPowerOfTwo size)).toNat = max 2 (nextPowerOfTwo size).toNat := maxToNat _ _
  by_cases more : 1 < size.toNat
  · have fits := nextPowerOfTwoIs more
    have bound : (size.toNat - 1).log2 < 64 := (Nat.log2_lt (by omega)).mpr (by have := size.toNat_lt; omega)
    have below : size.toNat - 1 < 2 ^ ((size.toNat - 1).log2 + 1) := Nat.lt_log2_self
    have above : 2 ^ (size.toNat - 1).log2 ≤ size.toNat - 1 := Nat.log2_self_le (by omega)
    by_cases last : (size.toNat - 1).log2 = 63
    · rw [last] at fits above
      obtain ⟨shift,power⟩ := shape 1 (by decide) (by decide) (by rw [larger,fits]; rfl)
      exact ⟨1,by decide,by decide,shift,power,fun small => absurd small (by omega)⟩
    · have inside : 2 ^ ((size.toNat - 1).log2 + 1) < 18446744073709551616 :=
        (Nat.pow_lt_pow_right (by decide) (show (size.toNat - 1).log2 + 1 < 64 by omega))
      rw [Nat.mod_eq_of_lt inside] at fits
      have two : 2 ≤ 2 ^ ((size.toNat - 1).log2 + 1) := Nat.le_self_pow (Nat.succ_ne_zero _) 2
      obtain ⟨shift,power⟩ := shape ((size.toNat - 1).log2 + 1) (by omega) (by omega)
        (by rw [larger,fits,max_eq_right two])
      refine ⟨_,by omega,by omega,shift,power,fun _ => ⟨by omega,fun _ => ?_⟩⟩
      rw [Nat.pow_succ]
      omega
  · have one : size = 1 := UInt64.toNat_inj.mp (show size.toNat = 1 by omega)
    subst one
    obtain ⟨shift,power⟩ := shape 1 (by decide) (by decide) (by decide +kernel)
    exact ⟨1,by decide,by decide,shift,power,fun _ => ⟨by decide,fun wide => absurd wide (by decide)⟩⟩

theorem indexBelow {hash : UInt64} {k : Nat} (low : 1 ≤ k) (high : k ≤ 63) : indexForHash hash (64 - k) < 2 ^ k := by
  have whole := (11400714819323198485 * hash).toNat_lt
  rw [indexForHash,UInt64.toNat_shiftRight,UInt64.toNat_ofNat_of_lt' (show 64 - k < 2 ^ 64 by omega),
    Nat.mod_eq_of_lt (show 64 - k < 64 by omega),Nat.shiftRight_eq_div_pow]
  refine Nat.div_lt_of_lt_mul ?_
  rw [← Nat.pow_add,show 64 - k + k = 64 by omega]
  exact whole

/- `entries` are the chains, the latest entry of each first. -/
structure Table (K V : Type) where
  entries : List (List (K × V))
  numSlotsMinusOne : UInt64
  shift : Nat
  numElements : Nat
  deriving DecidableEq, Repr

namespace Table
variable {K V : Type}

/- Two slots can be reached in the empty state, where there should be one. -/
def empty : Table K V := ⟨[[],[]],0,63,0⟩

def bucketCount (t : Table K V) : UInt64 := t.numSlotsMinusOne + 1

def isFull (t : Table K V) : Bool :=
  if t.numSlotsMinusOne = 0 then true else t.numElements + 1 > t.numSlotsMinusOne.toNat + 1

def place (hash : K → UInt64) (t : Table K V) (key : K) : Nat := indexForHash (hash key) t.shift

def chain (hash : K → UInt64) (t : Table K V) (key : K) : List (K × V) := t.entries.getD (t.place hash key) []

/- The slots of the old entries are gone through in their order, their chains from the front. -/
def rehash (hash : K → UInt64) (t : Table K V) (numBuckets : UInt64) : Table K V :=
  let numBuckets := max numBuckets (UInt64.ofNat t.numElements)
  if numBuckets = 0 then empty
  else
    let (newPrimeIndex,numBuckets) := nextSizeOver numBuckets
    if numBuckets = t.bucketCount then t
    else
      {t with
        entries := spread (fun key => indexForHash (hash key) newPrimeIndex) (List.replicate numBuckets.toNat [])
          (if t.numSlotsMinusOne = 0 then [] else t.entries.flatten)
        numSlotsMinusOne := numBuckets - 1
        shift := newPrimeIndex}

def reserve (hash : K → UInt64) (t : Table K V) (numElements : UInt64) : Table K V :=
  if numElements = 0 then t
  else if numElements > t.bucketCount then t.rehash hash numElements
  else t

def grow (hash : K → UInt64) (t : Table K V) : Table K V := t.rehash hash (max 4 (2 * t.bucketCount))

def clear (t : Table K V) : Table K V :=
  if t.numSlotsMinusOne = 0 then t
  else {t with entries := t.entries.map fun _ => [], numElements := 0}

section
variable [DecidableEq K]

def find (hash : K → UInt64) (t : Table K V) (key : K) : Option V := findKey (t.chain hash key) key

/- `none` where it would still grow and try again. -/
def emplaceWithin (hash : K → UInt64) (key : K) (val : V) : Nat → Table K V → Option (Bool × Table K V)
  | 0, _ => none
  | fuel + 1, t =>
    if key ∈ keysOf (t.chain hash key) then some (false,t)
    else if t.isFull then emplaceWithin hash key val fuel (t.grow hash)
    else some (true,{t with
      numElements := t.numElements + 1
      entries := pushAt t.entries (t.place hash key) (key,val)})

/- A growth may have to be followed by another one, see `emplaceReturns`. -/
def emplace (hash : K → UInt64) (t : Table K V) (key : K) (val : V) : Option (Bool × Table K V) :=
  emplaceWithin hash key val 3 t

/- The value of the entry that is found. -/
def write (hash : K → UInt64) (t : Table K V) (key : K) (val : V) : Table K V :=
  {t with entries := t.entries.modify (t.place hash key) fun entries => assign entries key val}

def erase (hash : K → UInt64) (t : Table K V) (key : K) : Nat × Table K V :=
  if key ∈ keysOf (t.chain hash key) then
    (1,{t with
      numElements := t.numElements - 1
      entries := t.entries.modify (t.place hash key) (eraseKey · key)})
  else (0,t)

end

/-! Iterators: a slot with the place in its chain, none for the end. -/

def slotBelow (t : Table K V) : Nat → Option (Nat × Nat)
  | 0 => none
  | slot + 1 => if t.entries.getD slot [] = [] then slotBelow t slot else some (slot,0)

def first (t : Table K V) : Option (Nat × Nat) := t.slotBelow (t.numSlotsMinusOne.toNat + 1)

def next (t : Table K V) (slot place : Nat) : Option (Nat × Nat) :=
  if place + 1 < (t.entries.getD slot []).length then some (slot,place + 1) else t.slotBelow slot

/- What a loop from an iterator to the end goes through. -/
def visits (t : Table K V) : Nat → Option (Nat × Nat) → Option (List (K × V))
  | _, none => some []
  | 0, some _ => none
  | fuel + 1, some (slot,place) =>
    match (t.entries.getD slot [])[place]? with
    | none => none
    | some entry => (visits t fuel (t.next slot place)).map (entry :: ·)

end Table
end Ltsm.HashTable
