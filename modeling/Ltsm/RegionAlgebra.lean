import Ltsm.DamagedRegions
import Ltsm.DividedRegions

/-! Regions as sets of points: what is common to two of them, the smallest one around both, and
the one with its corner and sides on a grid. -/
namespace Ltsm.RegionAlgebra
open Regions DamagedRegions DividedRegions

/- Region::intersection, with the region behind the pointer. -/
def intersection (reg1 reg2 : Region) (res : Option Region) : Bool × Option Region :=
  if reg1.intersects reg2 then
    match res with
    | none => (true,none)
    | some _ => (!(reg1.intersected reg2).isEmpty,some (reg1.intersected reg2))
  else (false,res)

/- The region around points that lies in every other one around them. -/
structure Hull (points : Set Point) (box : Region) : Prop where
  around : points ⊆ box.cells
  least : ∀ other : Region, points ⊆ other.cells → box.cells ⊆ other.cells

/- No other region around the two is smaller. -/
def Smallest (a b box : Region) : Prop := Hull (a.cells ∪ b.cells) box

/- A region on the grid, with all of the one that it is made of. -/
structure Aligned (a : Region) (n : Nat) (box : Region) : Prop where
  around : a.cells ⊆ box.cells
  across : (n : Int) ∣ box.x
  down : (n : Int) ∣ box.y
  again : box.align n = box

/- What an intersection has to tell and to write. -/
structure Intersection (a b : Region) (res : Option Region) (result : Bool × Option Region) : Prop where
  told : result.1 = true ↔ (a.cells ∩ b.cells).Nonempty
  written : result.1 = true → ∀ old, res = some old → ∃ box, result.2 = some box ∧ box.cells = a.cells ∩ b.cells
  kept : result.1 = false → result.2 = res

/- The box around two regions has sides of sixteen bits. -/
def Joinable (a b : Region) : Prop :=
  max (a.x + a.width) (b.x + b.width) - min a.x b.x ≤ 65535 ∧
    max (a.y + a.height) (b.y + b.height) - min a.y b.y ≤ 65535
instance (a b) : Decidable (Joinable a b) := inferInstanceAs (Decidable (_ ∧ _))

/- The sides between the lines of the grid around an axis. -/
def gridSpan (start : Int) (length n : Nat) : Int := alignUp (start + length) n - alignDown start n

def Alignable (a : Region) (n : Nat) : Prop := gridSpan a.x a.width n ≤ 65535 ∧ gridSpan a.y a.height n ≤ 65535
instance (a n) : Decidable (Alignable a n) := inferInstanceAs (Decidable (_ ∧ _))

section
variable {a b box : Region} {p : Point} {n : Nat}

/-! Two regions in common. -/

theorem intersectsIff : a.intersects b = true ↔ (a.cells ∩ b.cells).Nonempty := by
  constructor
  · intro meet
    obtain ⟨_,across,down⟩ := Region.intersectsMeet meet
    refine ⟨⟨max a.x b.x,max a.y b.y⟩,?_,?_⟩
    · change a.Has _
      unfold Region.Has
      simp only
      omega
    · change b.Has _
      unfold Region.Has
      simp only
      omega
  · rintro ⟨p,has,hasToo⟩
    exact Region.intersectsOf has hasToo

/- The sides of the common part are no longer than those of the first one. -/
theorem intersectedCells (stored : Stored a) : (a.intersected b).cells = a.cells ∩ b.cells := by
  ext p
  refine ⟨Region.intersectedSub,fun ⟨has,hasToo⟩ => ?_⟩
  have meet := Region.intersectsOf has hasToo
  obtain ⟨_,across,down⟩ := Region.intersectsMeet meet
  have wide := stored.wide
  have high := stored.high
  have width : (toUInt16 (min (a.x + a.width) (b.x + b.width) - max a.x b.x) : Int) =
      min (a.x + a.width) (b.x + b.width) - max a.x b.x := Region.toUInt16Kept (by omega) (by omega)
  have height : (toUInt16 (min (a.y + a.height) (b.y + b.height) - max a.y b.y) : Int) =
      min (a.y + a.height) (b.y + b.height) - max a.y b.y := Region.toUInt16Kept (by omega) (by omega)
  obtain ⟨west,east,north,south⟩ := has
  obtain ⟨westToo,eastToo,northToo,southToo⟩ := hasToo
  simp only [Region.cells,Region.intersected,meet,if_true,Set.mem_ofPred_eq,Region.Has,width,height]
  omega

theorem emptyIff : a.isEmpty = true ↔ a.cells = ∅ := by
  constructor
  · intro empty
    exact Set.eq_empty_of_forall_notMem fun p has => Region.nobodyHas empty has
  · intro none
    by_contra some
    have filled : 0 < a.width ∧ 0 < a.height := by
      simp only [Region.isEmpty,Bool.or_eq_true,decide_eq_true_iff] at some
      omega
    have corner : a.topLeft ∈ a.cells := topLeftHas filled
    rw [none] at corner
    exact corner

theorem intersectionLaw (stored : Stored a) (res : Option Region) :
    Intersection a b res (intersection a b res) := by
  by_cases meet : a.intersects b = true
  · have shared := intersectsIff.mp meet
    cases res with
    | none =>
      have result : intersection a b none = (true,none) := if_pos meet
      rw [result]
      exact ⟨iff_of_true rfl shared,fun _ _ absent => (by cases absent),fun _ => rfl⟩
    | some old =>
      have cells := @intersectedCells a b stored
      have filled : (a.intersected b).isEmpty = false := by
        rw [← Bool.not_eq_true,emptyIff,cells]
        exact shared.ne_empty
      have result : intersection a b (some old) = (!(a.intersected b).isEmpty,some (a.intersected b)) := if_pos meet
      rw [result,filled]
      exact ⟨iff_of_true rfl shared,fun _ _ _ => ⟨_,rfl,cells⟩,fun none => by cases none⟩
  · have result : intersection a b res = (false,res) := if_neg meet
    rw [result]
    exact ⟨iff_of_false Bool.false_ne_true (mt intersectsIff.mpr meet),fun told => (by cases told),fun _ => rfl⟩

/-! The box around two regions. -/

theorem filledIff : a.isEmpty = false ↔ 0 < a.width ∧ 0 < a.height := by
  simp only [Region.isEmpty,Bool.or_eq_false_iff,decide_eq_false_iff_not]
  omega

/- The points of a region lie in another one if its sides do. -/
theorem subsetIff (filled : a.isEmpty = false) : a.cells ⊆ b.cells ↔ a.Within b := by
  obtain ⟨wide,high⟩ := filledIff.mp filled
  constructor
  · intro inside
    have first : (⟨a.x,a.y⟩ : Point) ∈ a.cells := topLeftHas ⟨wide,high⟩
    have last : (⟨a.x + a.width - 1,a.y + a.height - 1⟩ : Point) ∈ a.cells := by
      simp only [Region.cells,Set.mem_ofPred_eq,Region.Has]
      omega
    obtain ⟨left,_,top,_⟩ := inside first
    obtain ⟨_,right,_,bottom⟩ := inside last
    exact ⟨left,top,by simp only at right; omega,by simp only at bottom; omega⟩
  · intro within p has
    exact withinHas within has

/- The box in the integers, whatever its sides. -/
def boxOf (a b : Region) : Region :=
  ⟨min a.x b.x,min a.y b.y,(max (a.x + a.width) (b.x + b.width) - min a.x b.x).toNat,
    (max (a.y + a.height) (b.y + b.height) - min a.y b.y).toNat⟩

theorem boxAround (a b : Region) : Region.Around a b (boxOf a b) := by
  constructor
  · rfl
  · rfl
  · simp only [boxOf]
    omega
  · simp only [boxOf]
    omega

theorem aroundWithin (around : Region.Around a b box) : a.Within box ∧ b.Within box := by
  obtain ⟨left,top,right,bottom⟩ := around
  exact ⟨⟨by omega,by omega,by omega,by omega⟩,by omega,by omega,by omega,by omega⟩

theorem smallestIff (some : a.isEmpty = false) (someToo : b.isEmpty = false) :
    Smallest a b box ↔ Region.Around a b box := by
  constructor
  · rintro ⟨around,least⟩
    obtain ⟨both,bothToo⟩ := Set.union_subset_iff.mp around
    obtain ⟨left,top,right,bottom⟩ := (subsetIff some).mp both
    obtain ⟨leftToo,topToo,rightToo,bottomToo⟩ := (subsetIff someToo).mp bothToo
    obtain ⟨inside,insideToo⟩ := aroundWithin (boxAround a b)
    have filled : box.isEmpty = false := by
      obtain ⟨wide,high⟩ := filledIff.mp some
      exact filledIff.mpr ⟨by omega,by omega⟩
    have small := least (boxOf a b) (Set.union_subset ((subsetIff some).mpr inside) ((subsetIff someToo).mpr insideToo))
    obtain ⟨west,north,east,south⟩ := (subsetIff filled).mp small
    obtain ⟨boxLeft,boxTop,boxRight,boxBottom⟩ := boxAround a b
    exact ⟨by omega,by omega,by omega,by omega⟩
  · intro around
    obtain ⟨inside,insideToo⟩ := aroundWithin around
    refine ⟨Set.union_subset ((subsetIff some).mpr inside) ((subsetIff someToo).mpr insideToo),fun other holds => ?_⟩
    obtain ⟨both,bothToo⟩ := Set.union_subset_iff.mp holds
    obtain ⟨left,top,right,bottom⟩ := (subsetIff some).mp both
    obtain ⟨leftToo,topToo,rightToo,bottomToo⟩ := (subsetIff someToo).mp bothToo
    obtain ⟨boxLeft,boxTop,boxRight,boxBottom⟩ := around
    exact fun p has => withinHas ⟨by omega,by omega,by omega,by omega⟩ has

theorem hullSelf (a : Region) : Hull a.cells a := ⟨subset_rfl,fun _ inside => inside⟩

/- A part may be put in the place of what it is the hull of. -/
theorem hullUnion {points : Set Point} (one : Hull points a) (both : Smallest a b box) : Hull (points ∪ b.cells) box := by
  obtain ⟨inside,insideToo⟩ := Set.union_subset_iff.mp both.around
  refine ⟨Set.union_subset (one.around.trans inside) insideToo,fun other holds => ?_⟩
  obtain ⟨first,second⟩ := Set.union_subset_iff.mp holds
  exact both.least other (Set.union_subset (one.least other first) second)

theorem hullUnique {points : Set Point} (some : a.isEmpty = false) (one : Hull points a) (other : Hull points b) :
    a = b := by
  have within := (subsetIff some).mp (one.least b other.around)
  have filled : b.isEmpty = false := by
    obtain ⟨wide,high⟩ := filledIff.mp some
    obtain ⟨left,top,right,bottom⟩ := within
    exact filledIff.mpr ⟨by omega,by omega⟩
  have back := (subsetIff filled).mp (other.least a one.around)
  obtain ⟨left,top,right,bottom⟩ := within
  obtain ⟨leftBack,topBack,rightBack,bottomBack⟩ := back
  cases a
  cases b
  simp only [Region.mk.injEq]
  simp only at left top right bottom leftBack topBack rightBack bottomBack
  omega

/- A region with a negative corner counts as none when another one is joined to it. -/
theorem joinInvalid (negative : ¬(0 ≤ a.x ∧ 0 ≤ a.y)) : a.join b = b := by
  have invalid : a.isValid = false := by
    rw [← Bool.not_eq_true,Region.validIff]
    exact fun valid => negative ⟨valid.1,valid.2.1⟩
  rw [Region.join,invalid]
  rfl

theorem storedAway (valid : a.isValid = true) (someToo : b.isEmpty = false) (differs : a ≠ b) :
    a.join b = ⟨min a.x b.x,min a.y b.y,toUInt16 (max (a.x + a.width) (b.x + b.width) - min a.x b.x),
      toUInt16 (max (a.y + a.height) (b.y + b.height) - min a.y b.y)⟩ := by
  have both : (!b.isEmpty && a != b) = true := by simp [someToo,differs]
  rw [Region.join,valid,both]
  rfl

theorem toUInt16Iff {value : Int} (low : 0 ≤ value) : (toUInt16 value : Int) = value ↔ value ≤ 65535 := by
  unfold toUInt16
  omega

theorem joinIff (stored : Stored b) (some : a.isEmpty = false) (someToo : b.isEmpty = false) :
    Smallest a b (a.join b) ↔ Joinable a b ∧ ((0 ≤ a.x ∧ 0 ≤ a.y) ∨ a.Within b) := by
  obtain ⟨wide,high⟩ := filledIff.mp some
  have wideToo := stored.wide
  have highToo := stored.high
  have fits (within : a.Within b) : Joinable a b := by
    obtain ⟨left,top,right,bottom⟩ := within
    exact ⟨by omega,by omega⟩
  rw [smallestIff some someToo]
  by_cases corner : 0 ≤ a.x ∧ 0 ≤ a.y
  · have valid : a.isValid = true := Region.validIff.mpr ⟨corner.1,corner.2,some⟩
    by_cases same : a = b
    · subst same
      have itself : a.join a = a := by simp [Region.join,valid]
      rw [itself]
      exact iff_of_true ⟨(min_self _).symm,(min_self _).symm,(max_self _).symm,(max_self _).symm⟩
        ⟨fits (withinSelf a),.inl corner⟩
    · have across := @toUInt16Iff (max (a.x + a.width) (b.x + b.width) - min a.x b.x) (by omega)
      have down := @toUInt16Iff (max (a.y + a.height) (b.y + b.height) - min a.y b.y) (by omega)
      rw [storedAway valid someToo same]
      constructor
      · rintro ⟨_,_,right,bottom⟩
        simp only at right bottom
        exact ⟨⟨across.mp (by omega),down.mp (by omega)⟩,.inl corner⟩
      · rintro ⟨⟨small,low⟩,_⟩
        have width := across.mpr small
        have height := down.mpr low
        exact ⟨rfl,rfl,by simp only; omega,by simp only; omega⟩
  · rw [joinInvalid corner]
    constructor
    · intro around
      have within := (aroundWithin around).1
      exact ⟨fits within,.inr within⟩
    · rintro ⟨_,positive | within⟩
      · exact absurd positive corner
      · obtain ⟨left,top,right,bottom⟩ := within
        exact ⟨by omega,by omega,by omega,by omega⟩

/-! The grid. -/

theorem gridPower (grid : hasSingleBit n = true) : 0 < n ∧ (n ∣ 32768 ∨ 65536 ∣ n) := by
  have power : n.isPowerOfTwo := by
    rw [← Nat.ne_zero_and_sub_one_eq_zero_iff_isPowerOfTwo]
    simpa [hasSingleBit] using grid
  obtain ⟨k,rfl⟩ := power
  refine ⟨Nat.two_pow_pos k,?_⟩
  by_cases small : k ≤ 15
  · exact .inl (Nat.pow_dvd_pow 2 small)
  · exact .inr (Nat.pow_dvd_pow 2 (show 16 ≤ k by omega))

/- The line of the grid below a coordinate. -/
theorem alignDownLine (grid : hasSingleBit n = true) (x : Int) :
    (n : Int) ∣ alignDown x n ∧ alignDown x n ≤ x ∧ x < alignDown x n + n := by
  have positive : (0 : Int) < n := by exact_mod_cast (gridPower grid).1
  rw [alignDown,if_pos grid]
  have below := Int.ediv_mul_le x positive.ne'
  have above := Int.lt_ediv_add_one_mul_self x positive
  rw [Int.add_mul,Int.one_mul] at above
  exact ⟨Dvd.intro_left _ rfl,below,above⟩

/- The line above it. -/
theorem alignUpLine (grid : hasSingleBit n = true) (x : Int) :
    (n : Int) ∣ alignUp x n ∧ x ≤ alignUp x n ∧ alignUp x n < x + n := by
  obtain ⟨line,below,above⟩ := alignDownLine grid (x + n - 1)
  rw [alignDown,if_pos grid] at line below above
  rw [alignUp,if_pos grid]
  exact ⟨line,by omega,by omega⟩

/- Lines that are less than a step apart are one. -/
theorem sameLine {one other : Int} (line : (n : Int) ∣ one) (lineToo : (n : Int) ∣ other)
    (before : one < other + n) (after : other < one + n) : one = other := by
  have apart : (n : Int) ∣ one - other := dvd_sub line lineToo
  have none := Int.eq_zero_of_abs_lt_dvd apart (abs_lt.mpr ⟨by omega,by omega⟩)
  omega

theorem alignDownSame (grid : hasSingleBit n = true) {x : Int} (line : (n : Int) ∣ x) : alignDown x n = x := by
  obtain ⟨lineToo,below,above⟩ := alignDownLine grid x
  exact sameLine lineToo line (by omega) (by omega)

theorem alignUpSame (grid : hasSingleBit n = true) {x : Int} (line : (n : Int) ∣ x) : alignUp x n = x := by
  obtain ⟨lineToo,below,above⟩ := alignUpLine grid x
  exact sameLine lineToo line (by omega) (by omega)

theorem alignUpSub (grid : hasSingleBit n = true) {x line : Int} (lines : (n : Int) ∣ line) :
    alignUp (x - line) n = alignUp x n - line := by
  obtain ⟨one,below,above⟩ := alignUpLine grid x
  obtain ⟨two,belowToo,aboveToo⟩ := alignUpLine grid (x - line)
  exact sameLine two (dvd_sub one lines) (by omega) (by omega)

/- Past sixteen bits nothing is left of a line. -/
theorem wideLine (many : 65536 ∣ n) {line : Int} (lines : (n : Int) ∣ line) : toInt16 line = 0 ∧ toUInt16 line = 0 := by
  have divides : (65536 : Int) ∣ n := by exact_mod_cast many
  have multiple := divides.trans lines
  refine ⟨Int.bmod_eq_zero_of_dvd multiple,?_⟩
  rw [toUInt16,Int.emod_eq_zero_of_dvd multiple]
  rfl

/- What is stored of a line is one. -/
theorem storedLine (grid : hasSingleBit n = true) {line : Int} (lines : (n : Int) ∣ line) : (n : Int) ∣ toInt16 line := by
  obtain ⟨_,few | many⟩ := gridPower grid
  · have divides : (n : Int) ∣ (65536 : Nat) := by exact_mod_cast few.trans (by decide : 32768 ∣ 65536)
    have difference := divides.trans (@Int.dvd_bmod_sub_self line 65536)
    have sum := dvd_add difference lines
    rwa [sub_add_cancel] at sum
  · rw [(wideLine many lines).1]
    exact dvd_zero _

theorem storedSpan (grid : hasSingleBit n = true) {span : Int} (lines : (n : Int) ∣ span) : (n : Int) ∣ toUInt16 span := by
  obtain ⟨_,few | many⟩ := gridPower grid
  · have divides : (n : Int) ∣ (65536 : Nat) := by exact_mod_cast few.trans (by decide : 32768 ∣ 65536)
    have whole : (toUInt16 span : Int) = span % (65536 : Nat) := by
      unfold toUInt16
      omega
    rw [whole,Int.emod_def]
    exact dvd_sub lines (divides.mul_right _)
  · rw [(wideLine many lines).2]
    exact dvd_zero _

theorem alignDownStored (grid : hasSingleBit n = true) (few : n ∣ 32768) {x : Int} (stored : toInt16 x = x) :
    toInt16 (alignDown x n) = alignDown x n := by
  obtain ⟨line,below,above⟩ := alignDownLine grid x
  have least : (n : Int) ∣ -32768 := (Int.dvd_neg).mpr (by exact_mod_cast few)
  have range : -32768 ≤ x ∧ x < 32768 := by
    have low := @Int.le_bmod x 65536 (by decide)
    have high := @Int.bmod_lt x 65536 (by decide)
    unfold toInt16 at stored
    omega
  refine toInt16Fits ?_ (by omega)
  by_contra under
  have same := sameLine line least (by omega) (by omega)
  omega

/- One axis of align: it has all of the axis if the lines around that are no further apart
than sixteen bits. -/
theorem axisCovered (grid : hasSingleBit n = true) {start : Int} {length : Nat} (stored : toInt16 start = start)
    (filled : 0 < length) :
    (toInt16 (alignDown start n) ≤ start ∧ start + length ≤ toInt16 (alignDown start n) +
      toUInt16 (alignUp (length + (start - toInt16 (alignDown start n))) n)) ↔ gridSpan start length n ≤ 65535 := by
  obtain ⟨line,below,above⟩ := alignDownLine grid start
  obtain ⟨positive,few | many⟩ := gridPower grid
  · have most := Nat.le_of_dvd (by decide) few
    have split : length + (start - alignDown start n) = start + length - alignDown start n := by omega
    obtain ⟨_,reaches,near⟩ := alignUpLine grid (start + length)
    rw [alignDownStored grid few stored,split,alignUpSub grid line,gridSpan]
    unfold toUInt16
    omega
  · have lines := (alignUpLine grid (length + (start - 0))).1
    obtain ⟨end_,reaches,_⟩ := alignUpLine grid (start + length)
    have apart : (n : Int) ∣ gridSpan start length n := dvd_sub end_ line
    have far : (n : Int) ≤ gridSpan start length n := Int.le_of_dvd (by unfold gridSpan; omega) apart
    have most := Nat.le_of_dvd positive many
    rw [(wideLine many line).1,(wideLine many lines).2]
    refine iff_of_false ?_ ?_
    · omega
    · omega

theorem alignAgain (grid : hasSingleBit n = true) : (a.align n).align n = a.align n := by
  have across := storedLine grid (alignDownLine grid a.x).1
  have down := storedLine grid (alignDownLine grid a.y).1
  have width := storedSpan grid (alignUpLine grid (a.width + (a.x - toInt16 (alignDown a.x n)))).1
  have height := storedSpan grid (alignUpLine grid (a.height + (a.y - toInt16 (alignDown a.y n)))).1
  have twice (value : Int) : toInt16 (toInt16 value) = toInt16 value := Int.bmod_bmod
  have span (value : Int) : toUInt16 (toUInt16 value) = toUInt16 value := by
    unfold toUInt16
    omega
  simp only [Region.align]
  rw [alignDownSame grid across,alignDownSame grid down,twice,twice,sub_self,sub_self,add_zero,add_zero,
    alignUpSame grid width,alignUpSame grid height,span,span]

theorem alignIff (stored : Stored a) : Aligned a n (a.align n) ↔
    if hasSingleBit n then a.isEmpty = true ∨ Alignable a n
    else a.isEmpty = true ∧ (n : Int) ∣ a.x ∧ (n : Int) ∣ a.y := by
  by_cases grid : hasSingleBit n = true
  · rw [if_pos grid]
    have across := storedLine grid (alignDownLine grid a.x).1
    have down := storedLine grid (alignDownLine grid a.y).1
    have only : Aligned a n (a.align n) ↔ a.cells ⊆ (a.align n).cells :=
      ⟨fun aligned => aligned.around,fun around => ⟨around,across,down,alignAgain grid⟩⟩
    rw [only]
    by_cases empty : a.isEmpty = true
    · rw [emptyIff.mp empty]
      exact iff_of_true (Set.empty_subset _) (.inl empty)
    · have some := Bool.not_eq_true _ ▸ empty
      obtain ⟨wide,high⟩ := filledIff.mp some
      have horizontal := axisCovered grid stored.left wide
      have vertical := axisCovered grid stored.top high
      rw [subsetIff some,or_iff_right empty,Alignable,← horizontal,← vertical]
      constructor
      · rintro ⟨left,top,right,bottom⟩
        exact ⟨⟨left,right⟩,top,bottom⟩
      · rintro ⟨⟨left,right⟩,top,bottom⟩
        exact ⟨left,top,right,bottom⟩
  · have result : a.align n = ⟨a.x,a.y,0,0⟩ := by
      simp only [Region.align,alignDown,alignUp,if_neg grid,stored.left,stored.top]
      rfl
    have still : (⟨a.x,a.y,0,0⟩ : Region).align n = ⟨a.x,a.y,0,0⟩ := by
      simp only [Region.align,alignDown,alignUp,if_neg grid,stored.left,stored.top]
      rfl
    have none : (⟨a.x,a.y,0,0⟩ : Region).cells = ∅ := emptyIff.mp rfl
    rw [if_neg grid,result]
    constructor
    · rintro ⟨around,across,down,_⟩
      rw [none,Set.subset_empty_iff] at around
      exact ⟨emptyIff.mpr around,across,down⟩
    · rintro ⟨empty,across,down⟩
      refine ⟨?_,across,down,still⟩
      rw [emptyIff.mp empty]
      exact Set.empty_subset _

end

/- What holds of all regions with the coordinates and sides of their types. -/
theorem regionLaws (a b : Region) (n : Nat) (stored : Stored a) (storedToo : Stored b) :
    (a.intersected b).cells = a.cells ∩ b.cells ∧ (∀ res, Intersection a b res (intersection a b res)) ∧
      (a.isEmpty = false → b.isEmpty = false →
        (Smallest a b (a.join b) ↔ Joinable a b ∧ ((0 ≤ a.x ∧ 0 ≤ a.y) ∨ a.Within b))) ∧
      (Aligned a n (a.align n) ↔ if hasSingleBit n then a.isEmpty = true ∨ Alignable a n
        else a.isEmpty = true ∧ (n : Int) ∣ a.x ∧ (n : Int) ∣ a.y) :=
  ⟨intersectedCells stored,intersectionLaw stored,joinIff storedToo,alignIff stored⟩

theorem regionLawsSmall : Smallest ⟨3,3,4,4⟩ ⟨-2,5,9,9⟩ ⟨-2,3,9,11⟩ ∧ Aligned ⟨-3,5,6,2⟩ 4 ⟨-4,4,8,4⟩ :=
  ⟨((regionLaws ⟨3,3,4,4⟩ ⟨-2,5,9,9⟩ 4 (by decide) (by decide)).2.2.1 rfl rfl).mpr ⟨by decide,.inl (by decide)⟩,
    (regionLaws ⟨-3,5,6,2⟩ ⟨-3,5,6,2⟩ 4 (by decide) (by decide)).2.2.2.mpr (.inr (by decide))⟩

/- A corner below zero drops a region out of the join. -/
theorem negativeCornerDropped :
    ¬ ∀ a b : Region, ∀ n, Stored a → Stored b → (∀ res, Intersection a b res (intersection a b res)) ∧
      (a.isEmpty = false → b.isEmpty = false → Smallest a b (a.join b)) ∧ Aligned a n (a.align n) := by
  intro all
  have joined := (all ⟨-1,0,2,1⟩ ⟨5,0,1,1⟩ 3 (by decide) (by decide)).2.1 rfl rfl
  obtain ⟨_,corner | within⟩ := (joinIff (by decide) rfl rfl).mp joined
  · exact absurd corner (by decide)
  · exact absurd within.left (by decide)

end Ltsm.RegionAlgebra
