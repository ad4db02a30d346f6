import Ltsm.Library.WrappedCounter
import Ltsm.Regions

/-! When a region is cut into blocks as it should be. The counters of both loops have
sixteen bits: one that wraps around before it comes to the end of its axis either never
comes there or goes over the first blocks again. -/
namespace Ltsm.DividedRegions
open Library Regions Region

theorem toUInt16Nat (value : Nat) : toUInt16 value = value % 65536 := by
  unfold toUInt16
  omega

/- The block that begins where the counter stands. -/
def axisBlock (step length pos : Nat) : Nat × Nat := (pos,min (length - pos) step)

/- What a loop went through: every value of the counter up to the first one past the end. -/
theorem axisTrace {step length fuel pos : Nat} {blocks : List (Nat × Nat)} (stored : pos < 65536)
    (returns : axisBlocks step length fuel pos = some blocks) :
    ∃ n, (∀ i < n, (pos + i * step) % 65536 < length) ∧ length ≤ (pos + n * step) % 65536 ∧
      blocks = (List.range n).map fun i => axisBlock step length ((pos + i * step) % 65536) := by
  induction fuel generalizing pos blocks with
  | zero => cases returns
  | succ fuel ih =>
    rw [axisBlocks] at returns
    by_cases inside : pos < length
    · rw [if_pos inside] at returns
      obtain ⟨rest,later,same⟩ := Option.bind_eq_some_iff.mp returns
      have next : toUInt16 ((pos : Int) + step) = (pos + step) % 65536 := by
        exact_mod_cast toUInt16Nat (pos + step)
      rw [next] at later
      obtain ⟨n,before,past,rfl⟩ := ih (Nat.mod_lt _ (by decide)) later
      have shift (i : Nat) : ((pos + step) % 65536 + i * step) % 65536 = (pos + (i + 1) * step) % 65536 := by
        rw [Nat.mod_add_mod,Nat.succ_mul,Nat.add_assoc,Nat.add_comm step]
      simp only [shift] at before past same
      refine ⟨n + 1,fun i low => ?_,past,?_⟩
      · cases i with
        | zero => rwa [Nat.zero_mul,Nat.add_zero,Nat.mod_eq_of_lt stored]
        | succ i => exact before i (Nat.lt_of_succ_lt_succ low)
      · rw [← Option.some.inj same,List.range_succ_eq_map,List.map_cons,List.map_map,Nat.zero_mul,Nat.add_zero,
          Nat.mod_eq_of_lt stored]
        rfl
    · rw [if_neg inside] at returns
      cases Option.some.inj returns
      exact ⟨0,by simp,by rw [Nat.zero_mul,Nat.add_zero,Nat.mod_eq_of_lt stored]; omega,rfl⟩

/- A loop ends if its counter comes past the end in time. -/
theorem axisReturns {step length fuel pos i : Nat} (stored : pos < 65536) (soon : i < fuel)
    (past : length ≤ (pos + i * step) % 65536) : ∃ blocks, axisBlocks step length fuel pos = some blocks := by
  induction fuel generalizing pos i with
  | zero => omega
  | succ fuel ih =>
    rw [axisBlocks]
    by_cases inside : pos < length
    · cases i with
      | zero =>
        rw [Nat.zero_mul,Nat.add_zero,Nat.mod_eq_of_lt stored] at past
        omega
      | succ i =>
        have next : toUInt16 ((pos : Int) + step) = (pos + step) % 65536 := by
          exact_mod_cast toUInt16Nat (pos + step)
        have shift : (pos + (i + 1) * step) % 65536 = ((pos + step) % 65536 + i * step) % 65536 := by
          rw [Nat.mod_add_mod,Nat.succ_mul,Nat.add_assoc,Nat.add_comm step]
        rw [shift] at past
        obtain ⟨rest,later⟩ := ih (Nat.mod_lt _ (by decide)) (Nat.lt_of_succ_lt_succ soon) past
        exact ⟨axisBlock step length pos :: rest,by rw [if_pos inside,next,later]; rfl⟩
    · exact ⟨[],if_neg inside⟩

theorem axisEndsIff {step length : Nat} : (∃ blocks, axisBlocks step length 65536 0 = some blocks) ↔
    length + Nat.gcd step 65536 ≤ 65536 := by
  rw [← counterReaches (by decide)]
  constructor
  · rintro ⟨blocks,returns⟩
    obtain ⟨n,_,past,_⟩ := axisTrace (by decide) returns
    rw [Nat.zero_add] at past
    exact ⟨n,past⟩
  · rintro ⟨i,past⟩
    have round : (0 + i % 65536 * step) % 65536 = i * step % 65536 := by
      rw [Nat.zero_add,Nat.mod_mul_mod]
    exact axisReturns (by decide) (Nat.mod_lt i (by decide)) (round ▸ past)

theorem toInt16Range (value : Int) : -32768 ≤ toInt16 value ∧ toInt16 value < 32768 := by
  have low := Int.le_bmod (x := value) (m := 65536) (by decide)
  have high := Int.bmod_lt (x := value) (m := 65536) (by decide)
  unfold toInt16
  omega

theorem storedRange {value : Int} (stored : toInt16 value = value) : -32768 ≤ value ∧ value < 32768 := by
  have range := toInt16Range value
  rwa [stored] at range

theorem storedTwice (value : Int) : toInt16 (toInt16 value) = toInt16 value := by
  obtain ⟨low,high⟩ := toInt16Range value
  exact toInt16Fits low high

/- Blocks of an axis that share a number. -/
def Meet (one other : Nat × Nat) : Prop := ∃ n, (one.1 ≤ n ∧ n < one.1 + one.2) ∧ other.1 ≤ n ∧ n < other.1 + other.2

/- A counter that wraps around comes back into the first block. -/
theorem stepsFit {start : Int} {step length : Nat} {blocks : List (Nat × Nat)} (positive : 0 < step)
    (whole : step ≤ length) (small : length < 65536) (returns : axisBlocks step length 65536 0 = some blocks)
    (stored : ∀ block ∈ blocks, toInt16 (start + block.1) = start + block.1)
    (apart : blocks.Pairwise fun one other => ¬Meet one other) :
    blockCount step length * step < 65536 ∧ start + (blockCount step length * step : Nat) < 32768 + step := by
  obtain ⟨n,before,past,rfl⟩ := axisTrace (by decide) returns
  simp only [Nat.zero_add] at before past stored apart
  obtain ⟨last,count⟩ : ∃ last, blockCount step length = last + 1 := ⟨_,blockCountNext positive (by omega)⟩
  have split : blockCount step length * step = last * step + step := by rw [count,Nat.succ_mul]
  have short : blockCount step length * step ≤ length + step - 1 := Nat.div_mul_le_self _ step
  have covers : length + step - 1 < blockCount step length * step + step := Nat.lt_div_mul_add positive
  -- until the last block the counter has not wrapped
  have early (i : Nat) (low : i ≤ last) : i * step % 65536 = i * step ∧ i < n := by
    have below : i * step ≤ last * step := Nat.mul_le_mul_right step low
    refine ⟨Nat.mod_eq_of_lt (by omega),?_⟩
    by_contra late
    have reached : n * step ≤ last * step := Nat.mul_le_mul_right step (by omega)
    rw [Nat.mod_eq_of_lt (show n * step < 65536 by omega)] at past
    omega
  constructor
  · by_contra wraps
    have again : blockCount step length * step % 65536 < step := by omega
    have more : blockCount step length < n := by
      by_contra late
      obtain same | less : n = blockCount step length ∨ n ≤ last := by omega
      · rw [same] at past
        omega
      · exact absurd (early n less).2 (Nat.lt_irrefl n)
    have pair := List.pairwise_iff_getElem.mp apart 0 (blockCount step length)
      (by rw [List.length_map,List.length_range]; omega) (by simpa using more) (by omega)
    simp only [List.getElem_map,List.getElem_range,Nat.zero_mul,Nat.zero_mod] at pair
    refine pair ⟨blockCount step length * step % 65536,?_,?_⟩
    · simp only [axisBlock]
      omega
    · simp only [axisBlock]
      omega
  · obtain ⟨same,low⟩ := early last le_rfl
    have fits := stored _ (List.mem_map.mpr ⟨last,List.mem_range.mpr low,rfl⟩)
    simp only [axisBlock,same] at fits
    obtain ⟨_,high⟩ := storedRange fits
    rw [split]
    omega

theorem axisFitsOf {start : Int} {step length : Nat} {blocks : List (Nat × Nat)} (positive : 0 < step)
    (some : 0 < length) (small : length < 65536)
    (returns : axisBlocks (min step length) length 65536 0 = .some blocks)
    (stored : ∀ block ∈ blocks, toInt16 (start + block.1) = start + block.1)
    (apart : blocks.Pairwise fun one other => ¬Meet one other) : AxisFits start step length := by
  obtain ⟨counted,fits⟩ := stepsFit (lt_min positive some) (Nat.min_le_right _ _) small returns stored apart
  exact ⟨counted,fun _ => fits⟩

/- What should come out: blocks of the region that do not overlap, none of them empty or
larger than the size, with all of the region in them. -/
structure Partition (r : Region) (sz : Size) (blocks : List Region) : Prop where
  filled : ∀ b ∈ blocks, 0 < b.width ∧ 0 < b.height
  within : ∀ b ∈ blocks, b.Within r
  narrow : ∀ b ∈ blocks, b.width ≤ sz.width ∧ b.height ≤ sz.height
  apart : blocks.Pairwise Away
  covers : ∀ p, r.Has p → ∃ b ∈ blocks, b.Has p

def Divides (r : Region) (sz : Size) (result : Option (List Region)) : Prop :=
  ∃ blocks, result = some blocks ∧ Partition r sz blocks

/- The blocks that divideCounts asks for. -/
def countsSize (r : Region) (cols rows : Nat) : Size :=
  ⟨if r.width ≤ cols then 1 else r.width / cols,if r.height ≤ rows then 1 else r.height / rows⟩

/- A region with all its fields in their sixteen bits. -/
structure Stored (r : Region) : Prop where
  left : toInt16 r.x = r.x
  top : toInt16 r.y = r.y
  wide : r.width < 65536
  high : r.height < 65536

instance (r : Region) : Decidable (Stored r) :=
  decidable_of_iff (toInt16 r.x = r.x ∧ toInt16 r.y = r.y ∧ r.width < 65536 ∧ r.height < 65536)
    ⟨fun h => ⟨h.1,h.2.1,h.2.2.1,h.2.2.2⟩,fun h => ⟨h.left,h.top,h.wide,h.high⟩⟩

/- An empty region has only to come to an end; a loop over no rows ends at once. -/
def Dividable (r : Region) (sz : Size) : Prop :=
  r.height = 0 ∨ (r.width = 0 ∧ r.height + Nat.gcd (min sz.height r.height) 65536 ≤ 65536) ∨
    (AxisFits r.x sz.width r.width ∧ AxisFits r.y sz.height r.height)
instance (r sz) : Decidable (Dividable r sz) := by unfold Dividable; infer_instance

section
variable {r : Region} {sz : Size}

/- A start that is stored at or behind the corner is stored as it is. -/
theorem storedBehind {corner : Int} {offset : Nat} (stored : toInt16 corner = corner) (small : offset < 65536)
    (behind : corner ≤ toInt16 (corner + offset)) : toInt16 (corner + offset) = corner + offset := by
  obtain ⟨low,high⟩ := storedRange stored
  have range := Int.bmod_def (corner + offset) 65536
  rw [toInt16] at behind ⊢
  split at range <;> omega

theorem dividesNothing {blocks : List Region} (nobody : ∀ p, ¬r.Has p) (none : blocks = []) :
    Partition r sz blocks := by
  subst none
  exact ⟨by simp,by simp,by simp,.nil,fun p has => absurd has (nobody p)⟩

/- A loop over a length goes through a block at least, and starts no block past its end. -/
theorem axisStarts {step length : Nat} {blocks : List (Nat × Nat)}
    (returns : axisBlocks step length 65536 0 = some blocks) :
    (∀ block ∈ blocks, block.1 < length) ∧ (blocks = [] ↔ length = 0) := by
  obtain ⟨n,before,past,rfl⟩ := axisTrace (by decide) returns
  refine ⟨fun block listed => ?_,?_⟩
  · obtain ⟨i,low,rfl⟩ := List.mem_map.mp listed
    exact before i (List.mem_range.mp low)
  · rw [List.map_eq_nil_iff,List.range_eq_nil]
    constructor
    · rintro rfl
      simpa using past
    · rintro rfl
      by_contra some
      have never := before 0 (Nat.pos_of_ne_zero some)
      omega

theorem axisFilled {step length : Nat} {blocks : List (Nat × Nat)} (positive : 0 < step)
    (returns : axisBlocks step length 65536 0 = some blocks) {block : Nat × Nat} (listed : block ∈ blocks) :
    block.1 < length ∧ 0 < block.2 ∧ block.2 ≤ length := by
  obtain ⟨n,before,_,rfl⟩ := axisTrace (by decide) returns
  obtain ⟨i,low,rfl⟩ := List.mem_map.mp listed
  have inside := before i (List.mem_range.mp low)
  simp only [axisBlock]
  omega

/- The rows and columns of what has been divided. -/
theorem dividedInto {blocks : List Region} (divides : r.divideBlocks sz = some blocks) (high : 0 < r.height) :
    ∃ rows cols, axisBlocks (min sz.height r.height) r.height 65536 0 = some rows ∧
      axisBlocks (min sz.width r.width) r.width 65536 0 = some cols ∧
      blocks = rows.flatMap fun row => cols.map fun col =>
        ⟨toInt16 (r.x + col.1),toInt16 (r.y + row.1),col.2,row.2⟩ := by
  cases down : axisBlocks (min sz.height r.height) r.height 65536 0 with
  | none =>
    rw [divideBlocks,down] at divides
    cases divides
  | some rows =>
    cases across : axisBlocks (min sz.width r.width) r.width 65536 0 with
    | none =>
      cases rows with
      | nil => exact absurd ((axisStarts down).2.mp rfl) (Nat.ne_of_gt high)
      | cons row rest =>
        rw [divideBlocks,down,across] at divides
        cases divides
    | some cols => exact ⟨rows,cols,rfl,rfl,Option.some.inj (divides.symm.trans (divideReturns down across))⟩

/- Blocks that do not overlap come from rows and columns that do not. -/
theorem partitionFits {blocks : List Region} (stored : Stored r) (wide : 0 < sz.width) (high : 0 < sz.height)
    (someWidth : 0 < r.width) (someHeight : 0 < r.height) (divides : r.divideBlocks sz = some blocks)
    (parts : Partition r sz blocks) : AxisFits r.x sz.width r.width ∧ AxisFits r.y sz.height r.height := by
  obtain ⟨rows,cols,down,across,rfl⟩ := dividedInto divides someHeight
  obtain ⟨rowsLow,rowsSome⟩ := axisStarts down
  obtain ⟨colsLow,colsSome⟩ := axisStarts across
  obtain ⟨filled,within,_,apart,_⟩ := parts
  have listed {row col} (inRows : row ∈ rows) (inCols : col ∈ cols) :
      (⟨toInt16 (r.x + col.1),toInt16 (r.y + row.1),col.2,row.2⟩ : Region) ∈
        rows.flatMap fun row => cols.map fun col =>
          (⟨toInt16 (r.x + col.1),toInt16 (r.y + row.1),col.2,row.2⟩ : Region) :=
    List.mem_flatMap.mpr ⟨row,inRows,List.mem_map.mpr ⟨col,inCols,rfl⟩⟩
  obtain ⟨row,inRows⟩ := List.exists_mem_of_ne_nil rows (by rw [Ne,rowsSome]; omega)
  obtain ⟨col,inCols⟩ := List.exists_mem_of_ne_nil cols (by rw [Ne,colsSome]; omega)
  have colStored (col) (inCols : col ∈ cols) : toInt16 (r.x + col.1) = r.x + col.1 :=
    storedBehind stored.left ((colsLow col inCols).trans stored.wide) (within _ (listed inRows inCols)).left
  have rowStored (row) (inRows : row ∈ rows) : toInt16 (r.y + row.1) = r.y + row.1 :=
    storedBehind stored.top ((rowsLow row inRows).trans stored.high) (within _ (listed inRows inCols)).top
  obtain ⟨inRow,between⟩ := List.pairwise_flatMap.mp apart
  constructor
  · refine axisFitsOf wide someWidth stored.wide across colStored ?_
    refine (List.pairwise_map.mp (inRow row inRows)).imp_of_mem ?_
    rintro one other oneListed otherListed away ⟨n,inOne,inOther⟩
    have tall := (filled _ (listed inRows oneListed)).2
    refine away ⟨r.x + n,toInt16 (r.y + row.1)⟩ ?_ ?_
    · rw [colStored one oneListed]
      simp only [Has] at tall ⊢
      omega
    · rw [colStored other otherListed]
      simp only [Has] at tall ⊢
      omega
  · refine axisFitsOf high someHeight stored.high down rowStored ?_
    refine between.imp_of_mem ?_
    rintro one other oneListed otherListed away ⟨n,inOne,inOther⟩
    have broad := (filled _ (listed inRows inCols)).1
    refine away _ (List.mem_map_of_mem inCols) _ (List.mem_map_of_mem inCols) ⟨toInt16 (r.x + col.1),r.y + n⟩ ?_ ?_
    · rw [rowStored one oneListed]
      simp only [Has] at broad ⊢
      omega
    · rw [rowStored other otherListed]
      simp only [Has] at broad ⊢
      omega

/- A region without rows, or without columns, comes apart into nothing, if the loop
over its rows ends. -/
theorem emptyReturns (empty : r.width = 0 ∨ r.height = 0) :
    (∃ blocks, r.divideBlocks sz = some blocks) ↔
      r.height + Nat.gcd (min sz.height r.height) 65536 ≤ 65536 := by
  rw [← axisEndsIff]
  constructor
  · rintro ⟨blocks,divides⟩
    cases down : axisBlocks (min sz.height r.height) r.height 65536 0 with
    | none =>
      rw [divideBlocks,down] at divides
      cases divides
    | some rows => exact ⟨rows,rfl⟩
  · rintro ⟨rows,down⟩
    obtain none | flat := empty
    · exact ⟨_,divideReturns down (by rw [none]; rfl)⟩
    · have nothing : rows = [] := (axisStarts down).2.mpr flat
      rw [divideBlocks,down,nothing]
      exact ⟨[],rfl⟩

theorem emptyBlocks {blocks : List Region} (empty : r.width = 0 ∨ r.height = 0)
    (divides : r.divideBlocks sz = some blocks) : blocks = [] := by
  by_cases high : 0 < r.height
  · obtain ⟨rows,cols,_,across,rfl⟩ := dividedInto divides high
    have none : cols = [] := (axisStarts across).2.mpr (empty.resolve_right (Nat.ne_of_gt high))
    simp [none]
  · have flat : r.height = 0 := by omega
    rw [divideBlocks,flat] at divides
    exact (Option.some.inj divides).symm

theorem emptyHas (empty : r.width = 0 ∨ r.height = 0) (p : Point) : ¬r.Has p := by
  rintro ⟨_,_,_,_⟩
  omega

theorem dividesIff (stored : Stored r) (wide : 0 < sz.width) (high : 0 < sz.height) :
    Divides r sz (r.divideBlocks sz) ↔ Dividable r sz := by
  constructor
  · rintro ⟨blocks,divides,parts⟩
    by_cases flat : r.height = 0
    · exact .inl flat
    · by_cases none : r.width = 0
      · exact .inr (.inl ⟨none,(emptyReturns (.inl none)).mp ⟨blocks,divides⟩⟩)
      · exact .inr (.inr (partitionFits stored wide high (by omega) (by omega) divides parts))
  · intro dividable
    obtain ⟨left,_⟩ := storedRange stored.left
    obtain ⟨top,_⟩ := storedRange stored.top
    have ends (empty : r.width = 0 ∨ r.height = 0)
        (room : r.height + Nat.gcd (min sz.height r.height) 65536 ≤ 65536) :
        Divides r sz (r.divideBlocks sz) := by
      obtain ⟨blocks,divides⟩ := (emptyReturns empty).mpr room
      exact ⟨blocks,divides,dividesNothing (emptyHas empty) (emptyBlocks empty divides)⟩
    obtain flat | ⟨none,room⟩ | ⟨across,down⟩ := dividable
    · exact ends (.inr flat) (by simp [flat])
    · exact ends (.inl none) room
    · obtain ⟨blocks,divides,tiles,apart⟩ := divisibleTiles ⟨left,top,across,down⟩ wide high
      exact ⟨blocks,divides,tiles.filled,tiles.within,tiles.narrow,apart,tiles.covers⟩

theorem countsPositive (r : Region) {cols rows : Nat} (someCols : 0 < cols) (someRows : 0 < rows) :
    0 < (countsSize r cols rows).width ∧ 0 < (countsSize r cols rows).height := by
  have positive (length counts : Nat) (some : 0 < counts) : 0 < if length ≤ counts then 1 else length / counts := by
    split
    · exact Nat.one_pos
    · exact Nat.div_pos (by omega) some
  exact ⟨positive r.width cols someCols,positive r.height rows someRows⟩

end

theorem divisionsIff (r : Region) (stored : Stored r) :
    (∀ sz : Size, 0 < sz.width → 0 < sz.height → (Divides r sz (r.divideBlocks sz) ↔ Dividable r sz)) ∧
    ∀ cols rows, 0 < cols → 0 < rows →
      (Divides r (countsSize r cols rows) (r.divideCounts cols rows) ↔ Dividable r (countsSize r cols rows)) := by
  refine ⟨fun sz wide high => dividesIff stored wide high,fun cols rows someCols someRows => ?_⟩
  obtain ⟨wide,high⟩ := countsPositive r someCols someRows
  exact dividesIff stored wide high

theorem divisionsSmall : Dividable ⟨1,2,5,4⟩ ⟨2,3⟩ ∧
    Divides ⟨1,2,5,4⟩ ⟨2,3⟩ ((⟨1,2,5,4⟩ : Region).divideBlocks ⟨2,3⟩) := by
  have fits : Dividable ⟨1,2,5,4⟩ ⟨2,3⟩ := by decide
  exact ⟨fits,((divisionsIff ⟨1,2,5,4⟩ (by decide)).1 ⟨2,3⟩ (by decide) (by decide)).mpr fits⟩

/- A client cuts the rectangles it is sent into blocks of 64 points a side. -/
theorem widestNeverEnds : (⟨0,0,65535,1⟩ : Region).divideBlocks ⟨64,64⟩ = none ∧
    ¬∀ (r : Region) (sz : Size), Stored r → 0 < sz.width → 0 < sz.height → Divides r sz (r.divideBlocks sz) := by
  have never : (⟨0,0,65535,1⟩ : Region).divideBlocks ⟨64,64⟩ = none := by
    by_contra some
    obtain ⟨blocks,divides⟩ := Option.ne_none_iff_exists'.mp some
    obtain ⟨rows,cols,_,across,_⟩ := dividedInto divides (by decide)
    have room := axisEndsIff.mp ⟨cols,across⟩
    revert room
    decide
  refine ⟨never,fun all => ?_⟩
  obtain ⟨blocks,divides,_⟩ := all ⟨0,0,65535,1⟩ ⟨64,64⟩ (by decide) (by decide) (by decide)
  rw [never] at divides
  cases divides

end Ltsm.DividedRegions
