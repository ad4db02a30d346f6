import Ltsm.DividedRegions
import Ltsm.TrleTiles

/-! What is computed over all pixels of a region. A large region is sampled before it
is compared with one value, and cut into bands for the threads when its pixels are
counted, numbered or run through. -/
namespace Ltsm.RegionScans
open Library Regions Region DividedRegions PixelFormats FrameBuffers FrameBuffer TrleTiles

/-! One value. -/

def Uniform (fb : FrameBuffer) (pix : UInt32) (reg : Region) : Prop := ∀ p, reg.Has p → fb.pixel p = pix

theorem scanIff {fb : FrameBuffer} {pix : UInt32} {reg : Region} :
    (reg.points.all fun p => pix == fb.pixel p) = true ↔ Uniform fb pix reg := by
  simp only [List.all_eq_true,memPoints,beq_iff_eq]
  exact ⟨fun all p has => (all p has).symm,fun all p has => (all p has).symm⟩

theorem samplesIff {fb : FrameBuffer} {pix : UInt32} {reg : Region} :
    (!isLarge reg || (fastChecks reg).all fun p => pix == fb.pixel p) = true ↔
      isLarge reg = false ∨ ∀ p ∈ fastChecks reg, fb.pixel p = pix := by
  simp only [Bool.or_eq_true,Bool.not_eq_true',List.all_eq_true,beq_iff_eq]
  exact or_congr_right ⟨fun all p listed => (all p listed).symm,fun all p listed => (all p listed).symm⟩

/- The samples of a large region are right if they show its value, wherever they lie;
for all pictures they are if they lie in the region. -/
theorem allOfPixelIff (reg : Region) :
    (∀ (fb : FrameBuffer) (pix : UInt32), (fb.allOfPixel pix reg = true ↔ Uniform fb pix reg) ↔
      (isLarge reg = false ∨ ¬Uniform fb pix reg ∨ ∀ p ∈ fastChecks reg, fb.pixel p = pix)) ∧
    ((∀ (fb : FrameBuffer) (pix : UInt32), fb.allOfPixel pix reg = true ↔ Uniform fb pix reg) ↔
      (isLarge reg = false ∨ ∀ p ∈ fastChecks reg, reg.Has p)) := by
  have each (fb : FrameBuffer) (pix : UInt32) : fb.allOfPixel pix reg = true ↔
      (isLarge reg = false ∨ ∀ p ∈ fastChecks reg, fb.pixel p = pix) ∧ Uniform fb pix reg := by
    rw [allOfPixel,Bool.and_eq_true,samplesIff,scanIff]
  refine ⟨fun fb pix => ?_,fun all => ?_,fun inside fb pix => ?_⟩
  · rw [each]
    by_cases uniform : Uniform fb pix reg
    · simp only [uniform,and_true,iff_true,not_true,false_or]
    · simp only [uniform,and_false,not_false_iff,true_or,or_true]
  · -- a picture with the value in the region only
    by_contra outside
    obtain ⟨large,some⟩ := not_or.mp outside
    obtain ⟨p,listed,out⟩ := not_forall₂.mp some
    let fb : FrameBuffer := ⟨reg,⟨0,0,0,0,0,0,0,0,32⟩,fun p => if reg.Has p then 1 else 0⟩
    have uniform : Uniform fb 1 reg := fun p has => if_pos has
    have samples := ((each fb 1).mp ((all fb 1).mpr uniform)).1.resolve_left large p listed
    simp [fb,FrameBuffer.pixel,out] at samples
  · rw [each]
    refine ⟨And.right,fun uniform => ⟨?_,uniform⟩⟩
    exact inside.imp id fun there p listed => uniform p (there p listed)

/- A region of one value right of another of the same size. -/
def twoHalves : FrameBuffer := ⟨⟨0,0,80,32⟩,⟨255,255,255,0,16,8,0,0,32⟩,fun p => if 40 ≤ p.x then 7 else 0⟩

theorem rightHalfMissed : Uniform twoHalves 7 ⟨40,0,40,32⟩ ∧ twoHalves.allOfPixel 7 ⟨40,0,40,32⟩ = false ∧
    ¬∀ (fb : FrameBuffer) (reg : Region) (pix : UInt32), reg.Within ⟨0,0,fb.region.width,fb.region.height⟩ →
      (fb.allOfPixel pix reg = true ↔ Uniform fb pix reg) := by
  have uniform : Uniform twoHalves 7 ⟨40,0,40,32⟩ := fun p has => if_pos has.1
  have missed : twoHalves.allOfPixel 7 ⟨40,0,40,32⟩ = false := by decide
  refine ⟨uniform,missed,fun all => ?_⟩
  have found := (all twoHalves ⟨40,0,40,32⟩ 7 ⟨by decide,by decide,by decide,by decide⟩).mpr uniform
  rw [missed] at found
  cases found

/-! Bands. -/

/- The colour of a pixel as the colour map keeps it, without its alpha. -/
def colourOf (fmt : PixelFormat) (pix : UInt32) : Color :=
  ⟨UInt8.ofNat (fmt.red pix),UInt8.ofNat (fmt.green pix),UInt8.ofNat (fmt.blue pix),0⟩

def regionColours (fb : FrameBuffer) (reg : Region) : List Color :=
  reg.points.foldl (fun set p => set.insert (colourOf fb.format (fb.pixel p))) []

/- A set of colours; the order of the list is no part of it. -/
def colourMap (fb : FrameBuffer) (cpu : Machine) : Option (List Color) :=
  if cpu.splits fb.region then do
    let blocks ← fb.region.divideBlocks (quarter fb.region)
    some (blocks.foldl (fun set block => (regionColours fb block).foldl (fun set col => set.insert col) set) [])
  else some (regionColours fb fb.region)

/- A machine that goes through every region in one pass. -/
def single (cpu : Machine) : Machine := {cpu with cores := 1}

def Alike {A : Type} (same : A → A → Prop) (many once : Option A) : Prop :=
  ∃ one other, many = some one ∧ once = some other ∧ same one other

/- Runs are the same if they expand to the same pixels, maps if they have the same
entries. -/
structure Agrees (cpu : Machine) (fb : FrameBuffer) (reg : Region) : Prop where
  runs : Alike (fun list once => expand list = expand once) (toRLE fb cpu reg) (toRLE fb (single cpu) reg)
  weights : Alike List.Perm (fb.pixelMapWeight cpu reg) (fb.pixelMapWeight (single cpu) reg)
  palette : Alike List.Perm (fb.pixelMapPalette cpu reg) (fb.pixelMapPalette (single cpu) reg)
  colours : Alike (fun set once => ∀ col, col ∈ set ↔ col ∈ once)
    (colourMap {fb with region := reg} cpu) (colourMap {fb with region := reg} (single cpu))

/- What the bands' maps are joined to. -/
def joined (weight : Nat) (fb : FrameBuffer) (cpu : Machine) (blocks : List Region) : List (UInt32 × Nat) :=
  blocks.foldl (fun map block => (cpu.hash.order (regionMap weight fb block)).foldl
    (fun map entry => tally entry.2 entry.1 map) map) []

/- The loop over the bands ends before its counter wraps around, with a start for each
band that can be stored. -/
def Banded (reg : Region) : Prop := 4 ≤ reg.height ∧ AxisFits reg.y (reg.height / 4) reg.height

/- The hash map hands out the pixels alike, whether they came in band by band or row by row. -/
def NumberedAlike (cpu : Machine) (fb : FrameBuffer) (reg : Region) : Prop :=
  ∀ blocks, reg.divideBlocks (quarter reg) = some blocks →
    keys (cpu.hash.order (joined 0 fb cpu blocks)) = keys (cpu.hash.order (regionMap 0 fb reg))

section
variable {cpu : Machine} {fb : FrameBuffer} {reg : Region} {blocks : List Region}

theorem passWeight (w : Nat) (fb : FrameBuffer) (reg : Region) (x : UInt32) :
    weight x (regionMap w fb reg) = (reg.points.map fun p => if fb.pixel p = x then w else 0).sum := by
  rw [regionMap,weightAll]
  simp [weight]

theorem joinedWeight (w : Nat) (blocks : List Region) (x : UInt32) : weight x (joined w fb cpu blocks) =
    ((blocks.flatMap Region.points).map fun p => if fb.pixel p = x then w else 0).sum := by
  have from_ (map : List (UInt32 × Nat)) : weight x (blocks.foldl (fun map block =>
      (cpu.hash.order (regionMap w fb block)).foldl (fun map entry => tally entry.2 entry.1 map) map) map) =
      weight x map + ((blocks.flatMap Region.points).map fun p => if fb.pixel p = x then w else 0).sum := by
    induction blocks generalizing map with
    | nil => simp
    | cons block rest ih =>
      have band := weightPerm (cpu.hash.perm (regionMap w fb block)) x
      rw [weight,passWeight] at band
      rw [List.foldl_cons,ih,weightAll,band,List.flatMap_cons,List.map_append,List.sum_append,Nat.add_assoc]
  rw [joined,from_]
  simp [weight]

/- Whatever its place, a pixel of the bands is one of the region. -/
theorem bandsPixel (points : blocks.flatMap Region.points = reg.points) (pix : UInt32) :
    (∃ block ∈ blocks, ∃ p, block.Has p ∧ fb.pixel p = pix) ↔ ∃ p, reg.Has p ∧ fb.pixel p = pix := by
  simp only [← memPoints,← points,List.mem_flatMap]
  constructor
  · rintro ⟨block,listed,p,inside,same⟩
    exact ⟨p,⟨block,listed,inside⟩,same⟩
  · rintro ⟨p,⟨block,listed,inside⟩,same⟩
    exact ⟨block,listed,p,inside,same⟩

theorem joinedPerm (w : Nat) (points : blocks.flatMap Region.points = reg.points) :
    (joined w fb cpu blocks).Perm (regionMap w fb reg) := by
  have counted := @blocksKeep fb cpu w blocks _ _ keepsNothing
  refine sameWeights (keepsCongr (fun pix => ?_) counted) (regionMapKeeps w fb reg) fun x => ?_
  · rw [false_or,bandsPixel points]
  · rw [joinedWeight,passWeight,points]

theorem insertedIff {A : Type} (colour : A → Color) (items : List A) (set : List Color) (col : Color) :
    col ∈ items.foldl (fun set a => set.insert (colour a)) set ↔ col ∈ set ∨ ∃ a ∈ items, colour a = col := by
  induction items generalizing set with
  | nil => simp
  | cons a rest ih =>
    rw [List.foldl_cons,ih,List.mem_insert_iff,List.exists_mem_cons_iff,@eq_comm _ col,or_assoc,or_left_comm]

theorem passColours (fb : FrameBuffer) (reg : Region) (col : Color) :
    col ∈ regionColours fb reg ↔ ∃ p ∈ reg.points, colourOf fb.format (fb.pixel p) = col := by
  rw [regionColours,insertedIff]
  simp

theorem bandsColours (points : blocks.flatMap Region.points = reg.points) (col : Color) :
    col ∈ blocks.foldl (fun set block => (regionColours fb block).foldl (fun set col => set.insert col) set) [] ↔
      col ∈ regionColours fb reg := by
  have from_ (set : List Color) :
      col ∈ blocks.foldl (fun set block => (regionColours fb block).foldl (fun set col => set.insert col) set) set ↔
        col ∈ set ∨ ∃ p ∈ blocks.flatMap Region.points, colourOf fb.format (fb.pixel p) = col := by
    clear points
    induction blocks generalizing set with
    | nil => simp
    | cons block rest ih =>
      have inner : col ∈ (regionColours fb block).foldl (fun set col => set.insert col) set ↔
          col ∈ set ∨ ∃ c ∈ regionColours fb block, c = col := insertedIff id (regionColours fb block) set col
      rw [List.foldl_cons,ih,inner]
      simp only [exists_eq_right,passColours,List.flatMap_cons,List.mem_append,or_and_right,exists_or,or_assoc]
  rw [from_,passColours,points]
  simp

/- With the bands' points those of the region in order, only the numbers of the palette
hang on the hash map. -/
theorem bandsAgree (splits : cpu.splits reg = true) (divides : reg.divideBlocks (quarter reg) = some blocks)
    (points : blocks.flatMap Region.points = reg.points) :
    Agrees cpu fb reg ↔ keys (cpu.hash.order (joined 0 fb cpu blocks)) = keys (cpu.hash.order (regionMap 0 fb reg)) := by
  have map (w : Nat) : pixelMap w fb cpu reg = some (joined w fb cpu blocks) := by
    rw [pixelMap,if_pos splits,divides]
    rfl
  have palette : fb.pixelMapPalette cpu reg = some (keys (cpu.hash.order (joined 0 fb cpu blocks))).zipIdx := by
    rw [pixelMapPalette,map]
    rfl
  constructor
  · rintro ⟨_,_,⟨one,other,many,once,same⟩,_⟩
    obtain rfl := Option.some.inj (palette.symm.trans many)
    obtain rfl : (keys (cpu.hash.order (regionMap 0 fb reg))).zipIdx = other := Option.some.inj once
    apply List.ext_getElem?
    intro i
    apply Option.ext
    intro pix
    have entry := same.mem_iff (a := (pix,i))
    rwa [List.mem_zipIdx_iff_getElem?,List.mem_zipIdx_iff_getElem?] at entry
  · intro numbered
    have runs : toRLE fb cpu reg = some (blocks.flatMap fun block => runsOf (pixelsOf fb block)) := by
      rw [toRLE,if_pos splits,divides]
      rfl
    refine ⟨⟨_,_,runs,rfl,?_⟩,⟨_,_,map 1,rfl,joinedPerm 1 points⟩,⟨_,_,palette,rfl,?_⟩,⟨_,_,?_,rfl,bandsColours points⟩⟩
    · show expand (blocks.flatMap fun block => runsOf (pixelsOf fb block)) = expand (runsOf (pixelsOf fb reg))
      rw [runsOfExpand,pixelsOf,← points,List.map_flatMap,expand,List.flatMap_assoc]
      exact List.flatMap_congr fun block _ => runsOfExpand (pixelsOf fb block)
    · rw [numbered]
      exact .refl _
    · rw [colourMap,if_pos splits]
      simp only [divides]
      rfl

theorem wholeAgrees (whole : cpu.splits reg = false) : Agrees cpu fb reg := by
  have pass (w : Nat) : pixelMap w fb cpu reg = some (regionMap w fb reg) := by
    rw [pixelMap,whole]
    rfl
  refine ⟨⟨runsOf (pixelsOf fb reg),_,?_,rfl,rfl⟩,⟨_,_,pass 1,rfl,.refl _⟩,⟨_,_,?_,rfl,.refl _⟩,
    ⟨regionColours {fb with region := reg} reg,_,?_,rfl,fun col => .rfl⟩⟩
  · rw [toRLE,whole]
    rfl
  · rw [pixelMapPalette,pass]
    rfl
  · rw [colourMap]
    simp only [whole]
    rfl

theorem bandedBlocks (stored : Stored reg) (splits : cpu.splits reg = true) (banded : Banded reg) :
    ∃ blocks, reg.divideBlocks (quarter reg) = some blocks ∧ blocks.flatMap Region.points = reg.points := by
  obtain ⟨wide,high⟩ := quarterFilled splits fun _ => banded.1
  obtain ⟨left,right⟩ := storedRange stored.left
  obtain ⟨top,_⟩ := storedRange stored.top
  have someWidth : 0 < reg.width := wide
  refine divisibleRows ⟨left,top,⟨?_,fun _ => ?_⟩,banded.2⟩ wide high
  · have less := stored.wide
    rwa [Nat.min_self,blockCountOne someWidth,Nat.one_mul]
  · rw [Nat.min_self,blockCountOne someWidth,Nat.one_mul]
    omega

/- A map that is in the order of its keys numbers them alike. -/
theorem sortedAlike (stored : Stored reg) (splits : cpu.splits reg = true) (banded : Banded reg)
    (sorted : ∀ entries others, entries.Perm others → cpu.hash.order entries = cpu.hash.order others) :
    NumberedAlike cpu fb reg := by
  obtain ⟨blocks,divides,points⟩ := bandedBlocks stored splits banded
  intro others divides'
  obtain rfl := Option.some.inj (divides.symm.trans divides')
  rw [sorted _ _ (joinedPerm 0 points)]

/-! A picture that marks the rows of a region in its first column. -/

def rowMark (y : Int) : UInt32 := UInt32.ofNat (y + 32769).toNat

def marked (reg : Region) (p : Point) : UInt32 := if p.x = reg.x then rowMark p.y else 0

theorem rowMarkNat {y : Int} (low : -32768 ≤ y) (high : y < 200000) : (rowMark y).toNat = (y + 32769).toNat := by
  rw [rowMark,UInt32.toNat_ofNat']
  omega

theorem rowMarkSame {y other : Int} (low : -32768 ≤ y) (high : y < 200000) (lowToo : -32768 ≤ other)
    (highToo : other < 200000) (same : rowMark y = rowMark other) : y = other := by
  have number := congrArg UInt32.toNat same
  rw [rowMarkNat low high,rowMarkNat lowToo highToo] at number
  omega

/- The marks of a region in the same columns, without the noughts beside them. -/
theorem markedRows {r : Region} (same : r.x = reg.x) (wide : 0 < r.width) (low : -32768 ≤ r.y)
    (high : r.y + r.height < 200000) : (r.points.map (marked reg)).filter (fun mark => mark != 0) =
      (List.range r.height).map fun (py : Nat) => rowMark (r.y + py) := by
  have line (py : Nat) (inside : py < r.height) :
      ((r.line py).map (marked reg)).filter (fun mark => mark != 0) = [rowMark (r.y + py)] := by
    obtain ⟨rest,split⟩ : ∃ rest, r.width = rest + 1 := ⟨r.width - 1,by omega⟩
    have some : rowMark (r.y + py) != 0 := by
      rw [bne_iff_ne]
      intro none
      have number := congrArg UInt32.toNat none
      rw [rowMarkNat (by omega) (by omega),UInt32.toNat_zero] at number
      omega
    have beside : ((List.range rest).map fun px => marked reg ⟨r.x + (px + 1 : Nat),r.y + py⟩).filter
        (fun mark => mark != 0) = [] := by
      apply List.filter_eq_nil_iff.mpr
      intro mark listed
      obtain ⟨px,_,rfl⟩ := List.mem_map.mp listed
      rw [marked,if_neg (show ¬r.x + (px + 1 : Nat) = reg.x by omega)]
      decide
    have first : marked reg ⟨r.x + (0 : Nat),r.y + py⟩ = rowMark (r.y + py) := if_pos (by simpa using same)
    rw [Region.line,split,List.range_succ_eq_map,List.map_cons,List.map_cons,List.map_map,List.map_map,first,
      List.filter_cons_of_pos (p := fun mark => mark != 0) some]
    exact congrArg _ beside
  rw [pointsLines,List.map_flatMap,List.filter_flatMap,← List.flatMap_pure_eq_map]
  exact List.flatMap_congr fun py listed => line py (List.mem_range.mp listed)

theorem marksDistinct (low : -32768 ≤ reg.y) (high : reg.y + reg.height < 200000) :
    ((List.range reg.height).map fun (py : Nat) => rowMark (reg.y + py)).Nodup := by
  refine List.Nodup.map_on (fun one oneLow other otherLow same => ?_) List.nodup_range
  have under := List.mem_range.mp oneLow
  have underToo := List.mem_range.mp otherLow
  have rows := rowMarkSame (by omega) (by omega) (by omega) (by omega) same
  omega

/- Rows whose marks come once and in order have not wrapped around. -/
theorem rowsFit {rows : List (Nat × Nat)} (stored : Stored reg) (some : 0 < reg.height) {step : Nat}
    (positive : 0 < step) (returns : axisBlocks (min step reg.height) reg.height 65536 0 = .some rows)
    (marks : (rows.flatMap fun row => (List.range row.2).map fun (py : Nat) =>
        rowMark (toInt16 (reg.y + row.1) + py)) =
      (List.range reg.height).map fun (py : Nat) => rowMark (reg.y + py)) : AxisFits reg.y step reg.height := by
  obtain ⟨top,bottom⟩ := storedRange stored.top
  have tall := stored.high
  have placed (row) (listed : row ∈ rows) : toInt16 (reg.y + row.1) = reg.y + row.1 := by
    obtain ⟨low,first,_⟩ := axisFilled (lt_min positive some) returns listed
    obtain ⟨above,below⟩ := toInt16Range (reg.y + row.1)
    have mark : rowMark (toInt16 (reg.y + row.1) + (0 : Nat)) ∈
        (List.range reg.height).map fun (py : Nat) => rowMark (reg.y + py) := by
      rw [← marks]
      exact List.mem_flatMap.mpr ⟨row,listed,List.mem_map.mpr ⟨0,List.mem_range.mpr first,rfl⟩⟩
    obtain ⟨py,inside,same⟩ := List.mem_map.mp mark
    have under := List.mem_range.mp inside
    have there := rowMarkSame (by omega) (by omega) (by omega) (by omega) same
    exact storedBehind stored.top (by omega) (by omega)
  refine axisFitsOf positive some tall returns placed ?_
  have distinct : ((List.range reg.height).map fun (py : Nat) => rowMark (reg.y + py)).Nodup :=
    marksDistinct top (by omega)
  rw [← marks] at distinct
  refine (List.nodup_flatMap.mp distinct).2.imp_of_mem ?_
  rintro one other oneListed otherListed disjoint ⟨n,⟨oneLow,oneHigh⟩,otherLow,otherHigh⟩
  have inRow (row : Nat × Nat) (listed : row ∈ rows) (low : row.1 ≤ n) (high : n < row.1 + row.2) :
      rowMark (reg.y + n) ∈ (List.range row.2).map fun (py : Nat) => rowMark (toInt16 (reg.y + row.1) + py) := by
    refine List.mem_map.mpr ⟨n - row.1,List.mem_range.mpr (by omega),?_⟩
    rw [placed row listed]
    congr 1
    omega
  exact disjoint (inRow one oneListed oneLow oneHigh) (inRow other otherListed otherLow otherHigh)

theorem bandsFit (stored : Stored reg) (splits : cpu.splits reg = true)
    (agrees : ∀ pixels, Agrees cpu {fb with pixels} reg) : Banded reg := by
  have area := largeArea (Bool.and_eq_true_iff.mp splits).2
  have wide : 0 < reg.width := Nat.pos_of_ne_zero fun none => by simp [none] at area
  have high : 0 < reg.height := Nat.pos_of_ne_zero fun none => by simp [none] at area
  obtain ⟨top,_⟩ := storedRange stored.top
  have tall := stored.high
  obtain ⟨⟨list,once,many,pass,same⟩,_⟩ := agrees (marked reg)
  rw [toRLE,if_pos splits] at many
  obtain ⟨blocks,divides,runs⟩ := Option.bind_eq_some_iff.mp many
  cases Option.some.inj runs
  cases Option.some.inj pass
  obtain ⟨rows,cols,down,across,rfl⟩ := dividedInto divides high
  have four : 4 ≤ reg.height := by
    by_contra low
    have none : (quarter reg).height = 0 := Nat.div_eq_of_lt (by omega)
    have ends := axisEndsIff.mp ⟨rows,down⟩
    rw [none,Nat.zero_min,Nat.gcd_zero_left] at ends
    omega
  refine ⟨four,rowsFit stored high (Nat.div_pos four (by decide)) down ?_⟩
  have one : cols = [(0,reg.width)] :=
    Option.some.inj (across.symm.trans (axisOne wide (Nat.le_refl reg.width) stored.wide))
  subst one
  rw [runsOfExpand,expand,List.flatMap_assoc,List.flatMap_assoc] at same
  have marks := congrArg (List.filter fun mark => mark != 0) same
  have whole := markedRows (r := reg) rfl wide top (by omega)
  rw [List.filter_flatMap] at marks
  refine Eq.trans (List.flatMap_congr fun row listed => ?_) (marks.trans whole)
  obtain ⟨_,_,short⟩ := axisFilled (lt_min (Nat.div_pos four (by decide)) high) down listed
  obtain ⟨above,below⟩ := toInt16Range (reg.y + row.1)
  have start : toInt16 (reg.x + (0 : Nat)) = reg.x := by
    rw [Nat.cast_zero,Int.add_zero]
    exact stored.left
  have band := @markedRows reg ⟨toInt16 (reg.x + (0 : Nat)),toInt16 (reg.y + row.1),reg.width,row.2⟩
    start wide above (by simp only; omega)
  rw [← band]
  exact congrArg (List.filter fun mark => mark != 0) ((runsOfExpand _).symm.trans (List.append_nil _).symm)

/- Fewer than four rows make bands of none. -/
theorem flatNeverEnds (splits : cpu.splits reg = true) (flat : reg.height < 4) (fb : FrameBuffer) :
    toRLE fb cpu reg = none ∧ fb.pixelMapWeight cpu reg = none ∧ fb.pixelMapPalette cpu reg = none := by
  have area := largeArea (Bool.and_eq_true_iff.mp splits).2
  have high : 0 < reg.height := Nat.pos_of_ne_zero fun none => by simp [none] at area
  have never : reg.divideBlocks (quarter reg) = none := by
    by_contra some
    obtain ⟨blocks,divides⟩ := Option.ne_none_iff_exists'.mp some
    obtain ⟨rows,cols,down,_⟩ := dividedInto divides high
    have none : (quarter reg).height = 0 := Nat.div_eq_of_lt flat
    have ends := axisEndsIff.mp ⟨rows,down⟩
    rw [none,Nat.zero_min,Nat.gcd_zero_left] at ends
    omega
  have map (w : Nat) : pixelMap w fb cpu reg = none := by
    rw [pixelMap,if_pos splits,never]
    rfl
  refine ⟨?_,map 1,?_⟩
  · rw [toRLE,if_pos splits,never]
    rfl
  · rw [pixelMapPalette,map]
    rfl

end

theorem parallelAgreesIff (cpu : Machine) (fb : FrameBuffer) (reg : Region) (stored : Stored reg) :
    (∀ pixels, Agrees cpu {fb with pixels} reg) ↔
      cpu.splits reg = false ∨ (Banded reg ∧ ∀ pixels, NumberedAlike cpu {fb with pixels} reg) := by
  by_cases splits : cpu.splits reg = true
  · rw [splits]
    simp only [Bool.true_eq_false,false_or]
    constructor
    · intro agrees
      have banded := bandsFit stored splits agrees
      obtain ⟨blocks,divides,points⟩ := bandedBlocks stored splits banded
      refine ⟨banded,fun pixels others divides' => ?_⟩
      obtain rfl := Option.some.inj (divides.symm.trans divides')
      exact (bandsAgree splits divides points).mp (agrees pixels)
    · rintro ⟨banded,alike⟩ pixels
      obtain ⟨blocks,divides,points⟩ := bandedBlocks stored splits banded
      exact (bandsAgree splits divides points).mpr (alike pixels blocks divides)
  · have whole : cpu.splits reg = false := Bool.eq_false_iff.mpr splits
    exact ⟨fun _ => .inl whole,fun _ _ => wholeAgrees whole⟩

/- Four cores, with a hash map that keeps to the order of insertion. -/
def fourCores : Machine := ⟨4,.unchanged⟩

theorem parallelAgreesSmall : (∀ pixels, Agrees fourCores {twoHalves with pixels} ⟨3,5,32,32⟩) ∧
    ¬∀ pixels, Agrees fourCores {twoHalves with pixels} ⟨3,5,600,3⟩ := by
  refine ⟨(parallelAgreesIff fourCores twoHalves ⟨3,5,32,32⟩ (by decide)).mpr (.inl (by decide)),fun agrees => ?_⟩
  obtain whole | ⟨⟨four,_⟩,_⟩ := (parallelAgreesIff fourCores twoHalves ⟨3,5,600,3⟩ (by decide)).mp agrees
  · revert whole
    decide
  · revert four
    decide

theorem threeRowsNeverEnd : toRLE twoHalves fourCores ⟨0,0,600,3⟩ = none ∧
    twoHalves.pixelMapWeight fourCores ⟨0,0,600,3⟩ = none ∧ twoHalves.pixelMapPalette fourCores ⟨0,0,600,3⟩ = none ∧
    ¬∀ (cpu : Machine) (fb : FrameBuffer) (reg : Region), Stored reg → reg.isEmpty = false → Agrees cpu fb reg := by
  obtain ⟨runs,weights,palette⟩ := @flatNeverEnds fourCores ⟨0,0,600,3⟩ (by decide) (by decide) twoHalves
  refine ⟨runs,weights,palette,fun all => ?_⟩
  obtain ⟨⟨_,_,many,_⟩,_⟩ := all fourCores twoHalves ⟨0,0,600,3⟩ (by decide) (by decide)
  rw [runs] at many
  cases many

end Ltsm.RegionScans
