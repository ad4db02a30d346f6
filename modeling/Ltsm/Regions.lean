import Ltsm.Library.ByteReader
import Ltsm.Library.Painting
import Ltsm.Library.Spans

/-! Points, sizes and regions of a screen. Coordinates are int16_t and sizes
uint16_t: what is stored in them is reduced to that range. -/
namespace Ltsm.Regions
open Library

def toInt16 (value : Int) : Int := value.bmod 65536
def toUInt16 (value : Int) : Nat := (value % 65536).toNat

structure Point where
  x : Int
  y : Int
  deriving DecidableEq, Repr

structure Size where
  width : Nat
  height : Nat
  deriving DecidableEq, Repr

structure Region where
  x : Int
  y : Int
  width : Nat
  height : Nat
  deriving DecidableEq, Repr

def Point.add (p q : Point) : Point := ⟨toInt16 (p.x + q.x),toInt16 (p.y + q.y)⟩

def Size.isEmpty (sz : Size) : Bool := sz.width = 0 || sz.height = 0

namespace Region

def topLeft (r : Region) : Point := ⟨r.x,r.y⟩
def toSize (r : Region) : Size := ⟨r.width,r.height⟩
def isEmpty (r : Region) : Bool := r.width = 0 || r.height = 0

def add (r : Region) (p : Point) : Region := ⟨toInt16 (r.x + p.x),toInt16 (r.y + p.y),r.width,r.height⟩
def sub (r : Region) (p : Point) : Region := ⟨toInt16 (r.x - p.x),toInt16 (r.y - p.y),r.width,r.height⟩

/- One loop of divideBlocks, over a uint16_t counter: the starts and lengths of the
blocks. A counter that has come through all its values runs for ever. -/
def axisBlocks (step length : Nat) : Nat → Nat → Option (List (Nat × Nat))
  | 0, _ => none
  | fuel + 1, pos =>
    if pos < length then do
      let rest ← axisBlocks step length fuel (toUInt16 (pos + step))
      some ((pos,min (length - pos) step) :: rest)
    else some []

/- The inner loop runs anew for every row, and not at all where there is none. -/
def divideBlocks (r : Region) (sz : Size) : Option (List Region) := do
  let rows ← axisBlocks (min sz.height r.height) r.height 65536 0
  let lines ← rows.mapM fun row => do
    let cols ← axisBlocks (min sz.width r.width) r.width 65536 0
    some (cols.map fun col => ⟨toInt16 (r.x + col.1),toInt16 (r.y + row.1),col.2,row.2⟩)
  some lines.flatten

def divideCounts (r : Region) (cols rows : Nat) : Option (List Region) :=
  r.divideBlocks ⟨if r.width ≤ cols then 1 else r.width / cols,
    if r.height ≤ rows then 1 else r.height / rows⟩

def area (r : Region) : Nat := r.width * r.height

/- The points of a region, row by row, as the loops over it and PointIterator go. -/
def points (r : Region) : List Point :=
  (List.range r.height).flatMap fun (py : Nat) =>
    (List.range r.width).map fun (px : Nat) => ⟨r.x + px,r.y + py⟩

def Has (r : Region) (p : Point) : Prop :=
  r.x ≤ p.x ∧ p.x < r.x + r.width ∧ r.y ≤ p.y ∧ p.y < r.y + r.height
instance (r p) : Decidable (Has r p) := by unfold Has; infer_instance

def cells (r : Region) : Set Point := {p | r.Has p}

/- All coordinates of the region can be stored. -/
structure Fits (r : Region) : Prop where
  left : 0 ≤ r.x
  top : 0 ≤ r.y
  right : r.x + r.width ≤ 32768
  bottom : r.y + r.height ≤ 32768

instance (r : Region) : Decidable r.Fits :=
  decidable_of_iff (0 ≤ r.x ∧ 0 ≤ r.y ∧ r.x + r.width ≤ 32768 ∧ r.y + r.height ≤ 32768)
    ⟨fun h => ⟨h.1,h.2.1,h.2.2.1,h.2.2.2⟩,fun h => ⟨h.left,h.top,h.right,h.bottom⟩⟩

end Region

theorem toInt16Fits {value : Int} (low : -32768 ≤ value) (high : value < 32768) : toInt16 value = value := by
  rw [toInt16,Int.bmod_eq_of_le_mul_two] <;> omega

theorem toUInt16Fits {value : Nat} (high : value < 65536) : toUInt16 value = value := by
  unfold toUInt16
  omega

/- The number of blocks of a length. -/
def blockCount (step length : Nat) : Nat := (length + step - 1) / step

theorem blockCountNone {step : Nat} (positive : 0 < step) : blockCount step 0 = 0 := by
  rw [blockCount,Nat.div_eq_of_lt (by omega)]

theorem blockCountNext {step length : Nat} (positive : 0 < step) (some : 0 < length) :
    blockCount step length = blockCount step (length - step) + 1 := by
  unfold blockCount
  by_cases more : step ≤ length
  · have split : length + step - 1 = (length - step + step - 1) + step := by omega
    rw [split,Nat.add_div_right _ positive]
  · have zero : length - step + step - 1 = step - 1 := by omega
    have one : length + step - 1 = (length - 1) + step := by omega
    rw [zero,one,Nat.add_div_right _ positive,Nat.div_eq_of_lt (by omega),Nat.div_eq_of_lt (by omega)]

theorem axisSpans {step length fuel pos : Nat} (positive : 0 < step) (small : step ≤ length)
    (room : pos + blockCount step (length - pos) * step < 65536) (enough : length - pos < fuel) :
    ∃ blocks, Region.axisBlocks step length fuel pos = some blocks ∧
      Spans (min pos length) blocks length ∧
      (∀ block ∈ blocks, block.2 ≤ step ∧ block.1 + step ≤ pos + blockCount step (length - pos) * step) ∧
      blocks.length = blockCount step (length - pos) := by
  induction fuel generalizing pos with
  | zero => omega
  | succ fuel ih =>
    rw [Region.axisBlocks]
    by_cases inside : pos < length
    · have count := blockCountNext positive (Nat.sub_pos_of_lt inside)
      rw [Nat.sub_sub] at count
      have advance : pos + blockCount step (length - pos) * step =
          pos + step + blockCount step (length - (pos + step)) * step := by
        rw [count,Nat.succ_mul]
        omega
      rw [advance] at room
      have next : toUInt16 ((pos : Int) + step) = pos + step := by
        exact_mod_cast toUInt16Fits (show pos + step < 65536 by omega)
      obtain ⟨rest,returns,spans,narrow,more⟩ := ih room (by omega)
      refine ⟨(pos,min (length - pos) step) :: rest,?_,?_,?_,?_⟩
      · rw [if_pos inside,next,returns]
        rfl
      · rw [Nat.min_eq_left (Nat.le_of_lt inside)]
        have after : pos + min (length - pos) step = min (pos + step) length := by omega
        exact .cons (by omega) (after ▸ spans)
      · rw [advance]
        exact List.forall_mem_cons.mpr ⟨⟨Nat.min_le_right _ _,by simp only; omega⟩,narrow⟩
      · rw [List.length_cons,more,count]
    · have past : length - pos = 0 := by omega
      refine ⟨[],by rw [if_neg inside],?_,by simp,?_⟩
      · rw [Nat.min_eq_right (by omega)]
        exact .nil length
      · rw [past,blockCountNone positive]
        rfl

/- The loop over an axis ends before its counter wraps around, and every start can be
stored. -/
structure AxisFits (start : Int) (step length : Nat) : Prop where
  counted : blockCount (min step length) length * min step length < 65536
  stored : 0 < length →
    start + (blockCount (min step length) length * min step length : Nat) < 32768 + (min step length : Nat)

instance (start step length) : Decidable (AxisFits start step length) :=
  decidable_of_iff (blockCount (min step length) length * min step length < 65536 ∧ (0 < length →
      start + (blockCount (min step length) length * min step length : Nat) < 32768 + (min step length : Nat)))
    ⟨fun h => ⟨h.1,h.2⟩,fun h => ⟨h.counted,h.stored⟩⟩

theorem axisFits {start : Int} {step length : Nat} (low : 0 ≤ start) (fits : start + length ≤ 32768) :
    AxisFits start step length := by
  have whole := Nat.div_mul_le_self (length + min step length - 1) (min step length)
  constructor
  · unfold blockCount
    omega
  · intro some
    unfold blockCount
    omega

/- The same for a whole axis, an empty one included. -/
theorem axisWhole {start : Int} {step length : Nat} (positive : 0 < step) (low : -32768 ≤ start)
    (fits : AxisFits start step length) :
    ∃ blocks, Region.axisBlocks (min step length) length 65536 0 = some blocks ∧
      Spans 0 blocks length ∧
      (∀ block ∈ blocks, block.2 ≤ step ∧ toInt16 (start + block.1) = start + block.1) ∧
      blocks.length = blockCount step length := by
  by_cases some : 0 < length
  · have counted := fits.counted
    have stored := fits.stored some
    have covers : length ≤ blockCount (min step length) length * min step length := by
      have less := Nat.lt_div_mul_add (lt_min positive some) (a := length + min step length - 1)
      unfold blockCount
      omega
    obtain ⟨blocks,returns,spans,narrow,count⟩ := @axisSpans (min step length) length 65536 0 (lt_min positive some)
      (Nat.min_le_right _ _) (by rwa [Nat.sub_zero,Nat.zero_add]) (by omega)
    rw [Nat.zero_min] at spans
    rw [Nat.sub_zero] at narrow count
    refine ⟨blocks,returns,spans,fun block listed => ?_,?_⟩
    · obtain ⟨less,before⟩ := narrow block listed
      exact ⟨less.trans (Nat.min_le_left _ _),toInt16Fits (by omega) (by omega)⟩
    · rw [count]
      by_cases more : step ≤ length
      · rw [Nat.min_eq_left more]
      · rw [Nat.min_eq_right (by omega),blockCountNext positive some,blockCountNext some some]
        have none : length - step = 0 := by omega
        rw [Nat.sub_self,none,blockCountNone positive,blockCountNone some]
  · obtain rfl : length = 0 := by omega
    exact ⟨[],by simp [Region.axisBlocks],.nil 0,by simp,(blockCountNone positive).symm⟩

/- The rows and columns that the two loops go through. -/
theorem divideReturns {r : Region} {sz : Size} {rows cols : List (Nat × Nat)}
    (down : Region.axisBlocks (min sz.height r.height) r.height 65536 0 = some rows)
    (across : Region.axisBlocks (min sz.width r.width) r.width 65536 0 = some cols) :
    r.divideBlocks sz = some (rows.flatMap fun row => cols.map fun col =>
      ⟨toInt16 (r.x + col.1),toInt16 (r.y + row.1),col.2,row.2⟩) := by
  have lines : rows.mapM (fun row => (Region.axisBlocks (min sz.width r.width) r.width 65536 0).bind fun cols =>
      some (cols.map fun col => (⟨toInt16 (r.x + col.1),toInt16 (r.y + row.1),col.2,row.2⟩ : Region))) =
      some (rows.map fun row => cols.map fun col => ⟨toInt16 (r.x + col.1),toInt16 (r.y + row.1),col.2,row.2⟩) :=
    mapMSome fun row _ => by rw [across]; rfl
  rw [Region.divideBlocks,down]
  simp only [bind,Option.bind] at lines ⊢
  rw [lines,List.flatMap_def]

/- The region lies inside the other one. -/
structure Region.Within (r outer : Region) : Prop where
  left : outer.x ≤ r.x
  top : outer.y ≤ r.y
  right : r.x + r.width ≤ outer.x + outer.width
  bottom : r.y + r.height ≤ outer.y + outer.height

/- No point is in both. -/
def Region.Away (r other : Region) : Prop := ∀ p, r.Has p → ¬other.Has p

theorem awaySymm {r other : Region} (away : r.Away other) : other.Away r :=
  fun p here there => away p there here

theorem withinSelf (r : Region) : r.Within r := ⟨le_rfl,le_rfl,le_rfl,le_rfl⟩

theorem withinTrans {r middle outer : Region} (one : r.Within middle) (two : middle.Within outer) :
    r.Within outer :=
  ⟨two.left.trans one.left,two.top.trans one.top,one.right.trans two.right,one.bottom.trans two.bottom⟩

theorem withinHas {r outer : Region} (h : r.Within outer) {p : Point} (has : r.Has p) : outer.Has p :=
  ⟨h.left.trans has.1,has.2.1.trans_le h.right,h.top.trans has.2.2.1,has.2.2.2.trans_le h.bottom⟩

theorem withinFits {r outer : Region} (h : r.Within outer) (fits : outer.Fits) : r.Fits :=
  ⟨fits.left.trans h.left,fits.top.trans h.top,h.right.trans fits.right,h.bottom.trans fits.bottom⟩

theorem topLeftHas {r : Region} (filled : 0 < r.width ∧ 0 < r.height) : r.Has r.topLeft := by
  unfold Region.Has Region.topLeft
  simp only
  omega

theorem filledArea {r : Region} (filled : 0 < r.width ∧ 0 < r.height) : 0 < r.area :=
  Nat.mul_pos filled.1 filled.2

/- What divideBlocks makes of a region. -/
structure Tiles (r : Region) (sz : Size) (blocks : List Region) : Prop where
  within : ∀ b ∈ blocks, b.Within r
  filled : ∀ b ∈ blocks, 0 < b.width ∧ 0 < b.height
  narrow : ∀ b ∈ blocks, b.width ≤ sz.width ∧ b.height ≤ sz.height
  covers : ∀ p, r.Has p → ∃ b ∈ blocks, b.Has p
  areas : (blocks.map Region.area).sum = r.area
  counts : blocks.length = blockCount sz.width r.width * blockCount sz.height r.height

/- The corners and the counters all fit. -/
structure Divisible (r : Region) (sz : Size) : Prop where
  left : -32768 ≤ r.x
  top : -32768 ≤ r.y
  across : AxisFits r.x sz.width r.width
  down : AxisFits r.y sz.height r.height

theorem divisible {r : Region} (fits : r.Fits) (sz : Size) : Divisible r sz :=
  ⟨by have := fits.left; omega,by have := fits.top; omega,axisFits fits.left fits.right,axisFits fits.top fits.bottom⟩

theorem divisibleTiles {r : Region} {sz : Size} (h : Divisible r sz) (wide : 0 < sz.width) (high : 0 < sz.height) :
    ∃ blocks, r.divideBlocks sz = some blocks ∧ Tiles r sz blocks ∧
      blocks.Pairwise Region.Away := by
  obtain ⟨rows,rowsReturn,rowSpans,rowsFit,rowCount⟩ := axisWhole high h.top h.down
  obtain ⟨cols,colsReturn,colSpans,colsFit,colCount⟩ := axisWhole wide h.left h.across
  let block (row col : Nat × Nat) : Region :=
    ⟨toInt16 (r.x + col.1),toInt16 (r.y + row.1),col.2,row.2⟩
  have placed {row col} (rowListed : row ∈ rows) (colListed : col ∈ cols) :
      block row col = ⟨r.x + col.1,r.y + row.1,col.2,row.2⟩ := by
    simp only [block]
    rw [(colsFit col colListed).2,(rowsFit row rowListed).2]
  have listed {b : Region} (h : b ∈ rows.flatMap fun row => cols.map (block row)) :
      ∃ row ∈ rows, ∃ col ∈ cols, b = ⟨r.x + col.1,r.y + row.1,col.2,row.2⟩ := by
    obtain ⟨row,rowListed,inRow⟩ := List.mem_flatMap.mp h
    obtain ⟨col,colListed,rfl⟩ := List.mem_map.mp inRow
    exact ⟨row,rowListed,col,colListed,placed rowListed colListed⟩
  refine ⟨rows.flatMap fun row => cols.map (block row),divideReturns rowsReturn colsReturn,?_,?_⟩
  · constructor
    · intro b h
      obtain ⟨row,rowListed,col,colListed,rfl⟩ := listed h
      have across := spansInside colSpans colListed
      have down := spansInside rowSpans rowListed
      constructor <;> simp only <;> omega
    · intro b h
      obtain ⟨row,rowListed,col,colListed,rfl⟩ := listed h
      exact ⟨(spansInside colSpans colListed).2.1,(spansInside rowSpans rowListed).2.1⟩
    · intro b h
      obtain ⟨row,rowListed,col,colListed,rfl⟩ := listed h
      exact ⟨(colsFit col colListed).1,(rowsFit row rowListed).1⟩
    · rintro p ⟨afterLeft,beforeRight,afterTop,beforeBottom⟩
      obtain ⟨col,colListed,colLow,colHigh⟩ :=
        spansCover colSpans (n := (p.x - r.x).toNat) (by omega) (by omega)
      obtain ⟨row,rowListed,rowLow,rowHigh⟩ :=
        spansCover rowSpans (n := (p.y - r.y).toNat) (by omega) (by omega)
      refine ⟨block row col,List.mem_flatMap.mpr ⟨row,rowListed,List.mem_map.mpr ⟨col,colListed,rfl⟩⟩,?_⟩
      rw [placed rowListed colListed]
      unfold Region.Has
      simp only
      omega
    · have products : (rows.flatMap fun row => cols.map (block row)).map Region.area =
          (rows.map Prod.snd).flatMap fun row => (cols.map Prod.snd).map fun col => col * row := by
        simp [List.map_flatMap,List.flatMap_map,Region.area,block,Function.comp_def]
      have across := spansTotal colSpans
      have down := spansTotal rowSpans
      rw [products,sumProducts,Region.area]
      congr 1 <;> omega
    · rw [← rowCount,← colCount,Nat.mul_comm]
      simp [List.length_flatMap]
  · -- blocks of one row are apart in their columns, those of two rows in the rows
    refine List.pairwise_flatMap.mpr ⟨fun row rowListed => List.pairwise_map.mpr ?_,?_⟩
    · refine (spansApart colSpans).imp_of_mem fun {one other} oneListed otherListed before => ?_
      rw [placed rowListed oneListed,placed rowListed otherListed]
      intro p here there
      obtain ⟨_,under,_⟩ := here
      obtain ⟨over_,_⟩ := there
      simp only at under over_
      omega
    · refine (spansApart rowSpans).imp_of_mem fun {one other} oneListed otherListed before => ?_
      intro a inOne b inOther
      obtain ⟨col,colListed,rfl⟩ := List.mem_map.mp inOne
      obtain ⟨next,nextListed,rfl⟩ := List.mem_map.mp inOther
      rw [placed oneListed colListed,placed otherListed nextListed]
      intro p here there
      obtain ⟨_,_,_,under⟩ := here
      obtain ⟨_,_,above,_⟩ := there
      simp only at under above
      omega

theorem divideTiles {r : Region} {sz : Size} (fits : r.Fits) (wide : 0 < sz.width) (high : 0 < sz.height) :
    ∃ blocks, r.divideBlocks sz = some blocks ∧ Tiles r sz blocks := by
  obtain ⟨blocks,divides,tiles,_⟩ := divisibleTiles (divisible fits sz) wide high
  exact ⟨blocks,divides,tiles⟩

theorem blockCountOne {length : Nat} (some : 0 < length) : blockCount length length = 1 := by
  rw [blockCountNext some some,Nat.sub_self,blockCountNone some]

/- An axis in one piece. -/
theorem axisOne {length step : Nat} (some : 0 < length) (small : length ≤ step) (fits : length < 65536) :
    Region.axisBlocks (min step length) length 65536 0 = .some [(0,length)] := by
  have count := blockCountOne some
  rw [← Nat.sub_zero length] at count
  obtain ⟨blocks,returns,spans,_,one⟩ := @axisSpans length length 65536 0 some le_rfl
    (by rw [Nat.sub_zero] at count; rw [Nat.sub_zero,count]; omega) (by omega)
  rw [Nat.zero_min] at spans
  rw [Nat.min_eq_right small,returns,spansOne spans (one.trans (blockCountOne some))]

/- A region no larger than the blocks is one block. -/
theorem divideSelf {r : Region} {sz : Size} (fits : r.Fits) (filled : 0 < r.width ∧ 0 < r.height)
    (narrow : r.width ≤ sz.width ∧ r.height ≤ sz.height) : r.divideBlocks sz = some [r] := by
  obtain ⟨left,top,right,bottom⟩ := fits
  rw [divideReturns (axisOne filled.2 narrow.2 (by omega)) (axisOne filled.1 narrow.1 (by omega))]
  simp only [List.flatMap_cons,List.flatMap_nil,List.map_cons,List.map_nil,
    List.append_nil,Nat.cast_zero,Int.add_zero]
  rw [toInt16Fits (by omega) (by omega),toInt16Fits (by omega) (by omega)]

def Region.line (r : Region) (py : Nat) : List Point :=
  (List.range r.width).map fun (px : Nat) => ⟨r.x + px,r.y + py⟩

theorem pointsLines (r : Region) : r.points = (List.range r.height).flatMap r.line := rfl

/- Blocks as wide as the region have its points in order. -/
theorem divisibleRows {r : Region} {step : Nat} (h : Divisible r ⟨r.width,step⟩) (wide : 0 < r.width)
    (positive : 0 < step) :
    ∃ blocks, r.divideBlocks ⟨r.width,step⟩ = some blocks ∧ blocks.flatMap Region.points = r.points := by
  have left := h.left
  have across := h.across
  obtain ⟨counted,stored⟩ := across
  rw [Nat.min_self,blockCountOne wide,Nat.one_mul] at counted stored
  have right := stored wide
  obtain ⟨rows,returns,spans,placed,_⟩ := axisWhole positive h.top h.down
  refine ⟨_,divideReturns returns (axisOne wide (Nat.le_refl _) counted),?_⟩
  have lines : (rows.flatMap fun row => (List.range row.2).map fun n => row.1 + n) = List.range r.height := by
    rw [spansRange spans,Nat.sub_zero,List.range_eq_range']
  rw [pointsLines,← lines,List.flatMap_assoc,List.flatMap_assoc]
  apply List.flatMap_congr
  intro row listed
  simp only [List.map_cons,List.map_nil,List.flatMap_cons,List.flatMap_nil,List.append_nil,Nat.cast_zero,
    Int.add_zero,List.flatMap_map]
  rw [toInt16Fits left (by omega),(placed row listed).2]
  simp [Region.points,Region.line,Int.add_assoc]

theorem divideRows {r : Region} {step : Nat} (fits : r.Fits) (wide : 0 < r.width) (positive : 0 < step) :
    ∃ blocks, r.divideBlocks ⟨r.width,step⟩ = some blocks ∧ blocks.flatMap Region.points = r.points :=
  divisibleRows (divisible fits _) wide positive

/- The region elsewhere, wherever its coordinates come to lie. -/
def Region.moved (r : Region) (dx dy : Int) : Region := ⟨r.x + dx,r.y + dy,r.width,r.height⟩

theorem movedHas {r : Region} {dx dy : Int} {p : Point} : (r.moved dx dy).Has p ↔ r.Has ⟨p.x - dx,p.y - dy⟩ := by
  simp only [Region.Has,Region.moved]
  omega

theorem movedWithin {r outer : Region} (h : r.Within outer) (dx dy : Int) :
    (r.moved dx dy).Within (outer.moved dx dy) := by
  obtain ⟨left,top,right,bottom⟩ := h
  constructor <;> simp only [Region.moved] <;> omega

theorem movedBack (r : Region) (dx dy : Int) : (r.moved (-dx) (-dy)).moved dx dy = r := by
  simp [Region.moved]

theorem addMoved {r : Region} {p : Point} (fits : (r.moved p.x p.y).Fits) (filled : 0 < r.width ∧ 0 < r.height) :
    r.add p = r.moved p.x p.y := by
  obtain ⟨left,top,right,bottom⟩ := fits
  simp only [Region.moved] at left top right bottom
  rw [Region.add,toInt16Fits (by omega) (by omega),toInt16Fits (by omega) (by omega)]
  rfl

/- A block of a region, taken relative to its corner. -/
theorem subMoved {r outer : Region} (within : r.Within outer) (fits : outer.Fits)
    (filled : 0 < r.width ∧ 0 < r.height) : r.sub outer.topLeft = r.moved (-outer.x) (-outer.y) := by
  obtain ⟨left,top,right,bottom⟩ := fits
  obtain ⟨leftIn,topIn,rightIn,bottomIn⟩ := within
  simp only [Region.sub,Region.topLeft]
  rw [toInt16Fits (by omega) (by omega),toInt16Fits (by omega) (by omega)]
  rfl

theorem subFits {r outer : Region} (within : r.Within outer) (fits : outer.Fits) :
    (r.moved (-outer.x) (-outer.y)).Fits := by
  obtain ⟨left,top,right,bottom⟩ := fits
  obtain ⟨leftIn,topIn,rightIn,bottomIn⟩ := within
  constructor <;> simp only [Region.moved] <;> omega

/- A block goes to its job relative to the region, and comes back. -/
theorem subAdd {r outer : Region} (within : r.Within outer) (fits : outer.Fits)
    (filled : 0 < r.width ∧ 0 < r.height) : (r.sub outer.topLeft).add outer.topLeft = r := by
  have back := movedBack r outer.x outer.y
  have inside : ((r.moved (-outer.x) (-outer.y)).moved outer.x outer.y).Fits := by
    rw [back]
    exact withinFits within fits
  have moves : (r.moved (-outer.x) (-outer.y)).add outer.topLeft =
      (r.moved (-outer.x) (-outer.y)).moved outer.topLeft.x outer.topLeft.y := addMoved inside filled
  rw [subMoved within fits filled,moves]
  exact back

end Ltsm.Regions
