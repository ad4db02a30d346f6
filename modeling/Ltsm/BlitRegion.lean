import Ltsm.DamagedRegions
import Ltsm.DividedRegions
import Ltsm.FrameBuffers

/-! A region of one frame buffer copied to a place in another. What of the target lies in
the destination is copied, row by row where the formats are the same and else pixel by
pixel, from the corner of the source region on. -/
namespace Ltsm.BlitRegion
open Library Regions Region PixelFormats PixelStreams FrameBuffers DividedRegions

/-! PointIterator, with its coordinates in sixteen bits. -/

def isValid (limit : Size) (coord : Point) : Bool :=
  (0 ≤ coord.x && 0 ≤ coord.y) && coord.x < limit.width && coord.y < limit.height

def advance (limit : Size) (coord : Point) : Point :=
  let x := toInt16 (coord.x + 1)
  if x < limit.width then ⟨x,coord.y⟩
  else if coord.y < limit.height then
    let y := toInt16 (coord.y + 1)
    if limit.height ≤ y then ⟨-1,-1⟩ else ⟨0,y⟩
  else ⟨x,coord.y⟩

def coordsFrom (limit : Size) : Nat → Point → List Point
  | 0, _ => []
  | fuel + 1, coord =>
    if isValid limit coord then coord :: coordsFrom limit fuel (advance limit coord) else []

/- No valid point comes twice. -/
def coords (limit : Size) : List Point := coordsFrom limit (limit.width * limit.height + 1) ⟨0,0⟩

/-! The copy. -/

def Point.sub (p q : Point) : Point := ⟨toInt16 (p.x - q.x),toInt16 (p.y - q.y)⟩

/- What starts at `corner` in the source, into a block of the destination. -/
def convertBlock (fb : FrameBuffer) (corner : Point) (block : Region) (dest : FrameBuffer) : Option FrameBuffer :=
  (coords block.toSize).foldlM (fun dest coord => dest.setPixel (block.topLeft.add coord)
    (dest.format.convertFrom fb.format (fb.pixel (corner.add coord)))) dest

def rowCopy (fb : FrameBuffer) (reg dst : Region) (dest : FrameBuffer) (row : Nat) : FrameBuffer :=
  {dest with pixels := fun p =>
    if p.y = dst.y + row ∧ dst.x ≤ p.x ∧ p.x < dst.x + dst.width then fb.pixel ⟨reg.x + (p.x - dst.x),reg.y + row⟩
    else dest.pixels p}

def target (reg : Region) (pos : Point) : Region := ⟨pos.x,pos.y,reg.width,reg.height⟩

/- Where a part of what is copied begins in the source. -/
def partCorner (reg dst subdst : Region) : Point := reg.topLeft.add (Point.sub subdst.topLeft dst.topLeft)

def convertRegion (cpu : Machine) (fb : FrameBuffer) (reg dst : Region) (dest : FrameBuffer) : Option FrameBuffer :=
  if cpu.splits reg then do
    let blocks ← dst.divideCounts 2 2
    blocks.foldlM (fun dest subdst => convertBlock fb (partCorner reg dst subdst) subdst dest) dest
  else convertBlock fb reg.topLeft dst dest

def blitRegion (cpu : Machine) (dest fb : FrameBuffer) (reg : Region) (pos : Point) : Option FrameBuffer :=
  let dst := (target reg pos).intersected dest.region
  if dst.isEmpty then some dest
  else if dest.format ≠ fb.format then convertRegion cpu fb reg dst dest
  else some ((List.range dst.height).foldl (rowCopy fb reg dst) dest)

/-! What it is for. -/

/- The pixels of a frame buffer, which are addressed from its own corner. -/
def inner (region : Region) : Region := ⟨0,0,region.width,region.height⟩

/- What lies as far from the one corner as the point does from the other. -/
def sourceOf (corner pos p : Point) : Point := ⟨corner.x + (p.x - pos.x),corner.y + (p.y - pos.y)⟩

/- The pixels that should be set: those of the target, inside both buffers. -/
def Wanted (destination source reg : Region) (pos p : Point) : Prop :=
  (target reg pos).Has p ∧ (inner destination).Has p ∧ (inner source).Has (sourceOf reg.topLeft pos p)
instance (destination source reg pos p) : Decidable (Wanted destination source reg pos p) := by
  unfold Wanted; infer_instance

/- A pixel of the source as the destination stores it. -/
def converted (dest fb : FrameBuffer) (p : Point) : Option UInt32 :=
  FrameBuffer.rawPixel dest.format.bitsPixel (dest.format.convertFrom fb.format (fb.pixel p))

/- Positions outside the frame are other pixels of the memory around it. -/
structure Copied (dest fb : FrameBuffer) (area : Point → Prop) (source : Point → Point) (out : FrameBuffer) : Prop where
  region : out.region = dest.region
  format : out.format = dest.format
  set : ∀ p, area p → some (out.pixel p) = converted dest fb (source p)
  kept : ∀ p, ¬area p → out.pixel p = dest.pixel p

def Blits (cpu : Machine) (dest fb : FrameBuffer) (reg : Region) (pos : Point) : Prop :=
  ∃ out, blitRegion cpu dest fb reg pos = some out ∧
    Copied dest fb (Wanted dest.region fb.region reg pos) (sourceOf reg.topLeft pos) out

/- The buffers have one of the depths there are, and pixels of that depth. -/
def Held (fb : FrameBuffer) : Prop :=
  ∀ p, FrameBuffer.rawPixel fb.format.bitsPixel (fb.pixel p) = some (fb.pixel p)

/-! What the iterator goes through. -/

section
variable {limit : Size}

theorem coordsValid {fuel : Nat} {start coord : Point} (listed : coord ∈ coordsFrom limit fuel start) :
    (⟨0,0,limit.width,limit.height⟩ : Region).Has coord := by
  induction fuel generalizing start with
  | zero => cases listed
  | succ fuel ih =>
    rw [coordsFrom] at listed
    by_cases valid : isValid limit start = true
    · rw [if_pos valid] at listed
      obtain rfl | later := List.mem_cons.mp listed
      · simp only [isValid,Bool.and_eq_true,decide_eq_true_eq] at valid
        simp only [Region.Has]
        omega
      · exact ih later
    · rw [if_neg valid] at listed
      cases listed

/- Every coordinate from a valid one on, if they can all be counted up to: in one row to
its last one, else to one past it. -/
theorem coordsReach (narrow : limit.width < 32768 ∨ limit.height = 1) (wide : limit.width ≤ 32768)
    (high : limit.height ≤ 32768) {fuel x y px py : Nat} (enough : (limit.height - y) * limit.width ≤ fuel + x)
    (right : x < limit.width) (bottom : y < limit.height) (inRow : px < limit.width) (inRows : py < limit.height)
    (later : (py = y ∧ x ≤ px) ∨ y < py) : (⟨px,py⟩ : Point) ∈ coordsFrom limit fuel ⟨x,y⟩ := by
  induction fuel generalizing x y with
  | zero =>
    have row : limit.width ≤ (limit.height - y) * limit.width := Nat.le_mul_of_pos_left _ (by omega)
    omega
  | succ fuel ih =>
    have valid : isValid limit ⟨x,y⟩ = true := by
      simp only [isValid,Bool.and_eq_true,decide_eq_true_eq]
      omega
    rw [coordsFrom,if_pos valid]
    by_cases here : py = y ∧ px = x
    · rw [here.1,here.2]
      exact List.mem_cons_self
    refine List.mem_cons_of_mem _ ?_
    by_cases more : x + 1 < limit.width
    · have next : advance limit ⟨x,y⟩ = ⟨(x + 1 : Nat),y⟩ := by
        have stored : toInt16 ((x : Int) + 1) = (x : Int) + 1 := toInt16Fits (by omega) (by omega)
        simp only [advance,stored]
        rw [if_pos (by omega)]
        rfl
      rw [next]
      exact ih (by omega) more bottom (by omega)
    · have lower : y < py := by omega
      have split : limit.height - y = limit.height - (y + 1) + 1 := by omega
      have next : advance limit ⟨x,y⟩ = ⟨(0 : Nat),(y + 1 : Nat)⟩ := by
        have past : ¬(x : Int) + 1 < limit.width := by omega
        have above : (y : Int) < limit.height := by omega
        have inside : ¬(limit.height : Int) ≤ (y : Int) + 1 := by omega
        have stored : toInt16 ((x : Int) + 1) = (x : Int) + 1 := toInt16Fits (by omega) (by omega)
        have storedToo : toInt16 ((y : Int) + 1) = (y : Int) + 1 := toInt16Fits (by omega) (by omega)
        simp only [advance,stored,storedToo,if_neg past,if_pos above,if_neg inside]
        rfl
      rw [split,Nat.succ_mul] at enough
      rw [next]
      exact ih (by omega) (by omega) (by omega) (by omega)

theorem coordsWhole (narrow : limit.width < 32768 ∨ limit.height = 1) (wide : limit.width ≤ 32768)
    (high : limit.height ≤ 32768) {coord : Point} :
    coord ∈ coords limit ↔ (⟨0,0,limit.width,limit.height⟩ : Region).Has coord := by
  refine ⟨coordsValid,fun has => ?_⟩
  obtain ⟨px,py⟩ := coord
  obtain ⟨left,right,top,bottom⟩ := has
  simp only at left right top bottom
  obtain ⟨across,rfl⟩ := Int.eq_ofNat_of_zero_le left
  obtain ⟨down,rfl⟩ := Int.eq_ofNat_of_zero_le top
  have reach := @coordsReach limit narrow wide high (limit.width * limit.height + 1) 0 0 across down
    (by rw [Nat.sub_zero,Nat.mul_comm]; omega) (by omega) (by omega) (by omega) (by omega) (by omega)
  exact reach

/- A row that the counter does not come to the end of is the only one. -/
theorem coordsFirstRow (wide : 32768 ≤ limit.width) {fuel : Nat} {start coord : Point} (row : start.y = 0)
    (listed : coord ∈ coordsFrom limit fuel start) : coord.y = 0 := by
  induction fuel generalizing start with
  | zero => cases listed
  | succ fuel ih =>
    rw [coordsFrom] at listed
    by_cases valid : isValid limit start = true
    · rw [if_pos valid] at listed
      obtain rfl | later := List.mem_cons.mp listed
      · exact row
      · refine ih ?_ later
        obtain ⟨_,below⟩ := toInt16Range (start.x + 1)
        simp only [advance]
        rw [if_pos (by omega)]
        exact row
    · rw [if_neg valid] at listed
      cases listed

end

/-! Copies one after another. -/

section
variable {dest fb mid out : FrameBuffer} {area other : Point → Prop} {source : Point → Point}

/- The depth is one of those that are told apart. -/
def Known (pf : PixelFormat) : Prop := ∀ pixel, ∃ raw, FrameBuffer.rawPixel pf.bitsPixel pixel = some raw

theorem heldKnown (held : Held fb) : Known fb.format := by
  intro pixel
  have known := held ⟨0,0⟩
  revert known
  unfold FrameBuffer.rawPixel
  split
  · exact fun _ => ⟨_,rfl⟩
  · exact fun _ => ⟨_,rfl⟩
  · exact fun _ => ⟨_,rfl⟩
  · exact fun _ => ⟨_,rfl⟩
  · intro known
    cases known

theorem copiedNothing (none : ∀ p, ¬area p) : Copied dest fb area source dest :=
  ⟨rfl,rfl,fun p inside => absurd inside (none p),fun _ _ => rfl⟩

theorem convertedAs (format : mid.format = dest.format) (p : Point) : converted mid fb p = converted dest fb p := by
  rw [converted,converted,format]

theorem copiedTwice (one : Copied dest fb area source mid) (two : Copied mid fb other source out) :
    Copied dest fb (fun p => area p ∨ other p) source out := by
  refine ⟨two.region.trans one.region,two.format.trans one.format,fun p inside => ?_,fun p outside => ?_⟩
  · by_cases late : other p
    · rw [two.set p late,convertedAs one.format]
    · rw [two.kept p late]
      exact one.set p (inside.resolve_right late)
  · obtain ⟨early,late⟩ := not_or.mp outside
    rw [two.kept p late,one.kept p early]

theorem copiedSame (copied : Copied dest fb area source out) {source' : Point → Point} (same : ∀ p, area p ↔ other p)
    (from_ : ∀ p, area p → source p = source' p) : Copied dest fb other source' out :=
  ⟨copied.region,copied.format,fun p inside => by rw [← from_ p ((same p).mpr inside),copied.set p ((same p).mpr inside)],
    fun p outside => copied.kept p ((same p).not.mpr outside)⟩

/- One row, and all rows. -/
theorem rowCopied (same : dest.format = fb.format) (held : Held fb) (reg dst : Region) (row : Nat) :
    Copied dest fb (fun p => p.y = dst.y + row ∧ dst.x ≤ p.x ∧ p.x < dst.x + dst.width)
      (sourceOf reg.topLeft dst.topLeft) (rowCopy fb reg dst dest row) := by
  refine ⟨rfl,rfl,fun p inside => ?_,fun p outside => if_neg outside⟩
  have place : sourceOf reg.topLeft dst.topLeft p = ⟨reg.x + (p.x - dst.x),reg.y + row⟩ := by
    obtain ⟨inRow,_,_⟩ := inside
    simp only [sourceOf,Region.topLeft,Point.mk.injEq,true_and]
    omega
  have pixel : (rowCopy fb reg dst dest row).pixel p = fb.pixel ⟨reg.x + (p.x - dst.x),reg.y + row⟩ := if_pos inside
  rw [converted,same,convertSelf,held,place,pixel]

theorem rowsCopied (same : dest.format = fb.format) (held : Held fb) (reg dst : Region) :
    Copied dest fb dst.Has (sourceOf reg.topLeft dst.topLeft) ((List.range dst.height).foldl (rowCopy fb reg dst) dest) := by
  have rows (rows : List Nat) (dest : FrameBuffer) (same : dest.format = fb.format) :
      Copied dest fb (fun p => ∃ row ∈ rows, p.y = dst.y + (row : Nat) ∧ dst.x ≤ p.x ∧ p.x < dst.x + dst.width)
        (sourceOf reg.topLeft dst.topLeft) (rows.foldl (rowCopy fb reg dst) dest) := by
    induction rows generalizing dest with
    | nil => exact copiedNothing (by simp)
    | cons row rest ih =>
      have both := copiedTwice (rowCopied same held reg dst row) (ih _ same)
      exact copiedSame both (by simp) fun _ _ => rfl
  refine copiedSame (rows (List.range dst.height) dest same) (fun p => ?_) fun _ _ => rfl
  constructor
  · rintro ⟨row,listed,at_,left,right⟩
    have below := List.mem_range.mp listed
    exact ⟨left,right,by omega,by omega⟩
  · rintro ⟨left,right,top,bottom⟩
    exact ⟨(p.y - dst.y).toNat,List.mem_range.mpr (by omega),by omega,left,right⟩

/- Wherever something is set, it comes from a coordinate of the iterator. -/
theorem convertTraced (known : Known dest.format) {corner : Point} {block : Region} (list : List Point)
    (before : ∀ coord ∈ list, (block.topLeft.add coord).x < dest.region.width ∧
      dest.region.width - (block.topLeft.add coord).x < 18446744073709551616) :
    ∃ out, list.foldlM (fun dest coord => dest.setPixel (block.topLeft.add coord)
        (dest.format.convertFrom fb.format (fb.pixel (corner.add coord)))) dest = some out ∧
      out.region = dest.region ∧ out.format = dest.format ∧
      (∀ p, (∃ coord ∈ list, block.topLeft.add coord = p) → ∃ coord ∈ list, block.topLeft.add coord = p ∧
        some (out.pixel p) = converted dest fb (corner.add coord)) ∧
      ∀ p, (∀ coord ∈ list, block.topLeft.add coord ≠ p) → out.pixel p = dest.pixel p := by
  induction list generalizing dest with
  | nil => exact ⟨dest,rfl,rfl,rfl,by simp,fun _ _ => rfl⟩
  | cons coord rest ih =>
    obtain ⟨⟨left,near⟩,later⟩ := List.forall_mem_cons.mp before
    obtain ⟨raw,keeps⟩ := known (dest.format.convertFrom fb.format (fb.pixel (corner.add coord)))
    let next : FrameBuffer := {dest with pixels := setPixel (block.topLeft.add coord) raw dest.pixels}
    have sets := setPixelInside keeps left near
    obtain ⟨out,copies,region,format,set,kept⟩ := @ih next known later
    refine ⟨out,?_,region,format,fun p reached => ?_,fun p apart => ?_⟩
    · rw [List.foldlM_cons,sets]
      exact copies
    · by_cases again : ∃ coord ∈ rest, block.topLeft.add coord = p
      · obtain ⟨other,listed,here,pixel⟩ := set p again
        exact ⟨other,List.mem_cons_of_mem _ listed,here,pixel⟩
      · have here : block.topLeft.add coord = p := by
          obtain ⟨other,listed,here⟩ := reached
          obtain rfl | later := List.mem_cons.mp listed
          · exact here
          · exact absurd ⟨other,later,here⟩ again
        have last : out.pixel p = raw := by
          rw [kept p fun other listed there => again ⟨other,listed,there⟩]
          exact if_pos here.symm
        exact ⟨coord,List.mem_cons_self,here,by rw [last,converted,keeps]⟩
    · obtain ⟨first,others⟩ := List.forall_mem_cons.mp apart
      rw [kept p others]
      exact if_neg fun here => first here.symm

/- All of a block, and all that is read for it, lies at coordinates that can be stored,
and the iterator comes through it. -/
structure Countable (corner : Point) (block : Region) : Prop where
  left : -32768 ≤ block.x ∧ -32768 ≤ corner.x
  top : -32768 ≤ block.y ∧ -32768 ≤ corner.y
  right : block.x + block.width ≤ 32768 ∧ corner.x + block.width ≤ 32768
  bottom : block.y + block.height ≤ 32768 ∧ corner.y + block.height ≤ 32768
  narrow : (block.width < 32768 ∨ block.height = 1) ∧ block.width ≤ 32768 ∧ block.height ≤ 32768

theorem addFits {corner coord : Point} (x : -32768 ≤ corner.x + coord.x ∧ corner.x + coord.x < 32768)
    (y : -32768 ≤ corner.y + coord.y ∧ corner.y + coord.y < 32768) :
    corner.add coord = ⟨corner.x + coord.x,corner.y + coord.y⟩ := by
  rw [Point.add,toInt16Fits x.1 x.2,toInt16Fits y.1 y.2]

theorem blockCopied (known : Known dest.format) (wide : dest.region.width < 65536) {corner : Point} {block : Region}
    (inFrame : block.x + block.width ≤ dest.region.width) (c : Countable corner block) :
    ∃ out, convertBlock fb corner block dest = some out ∧
      Copied dest fb block.Has (sourceOf corner block.topLeft) out := by
  obtain ⟨⟨left,left'⟩,⟨top,top'⟩,⟨right,right'⟩,⟨bottom,bottom'⟩,narrow,low,high⟩ := c
  have listed (coord : Point) : coord ∈ coords block.toSize ↔ (⟨0,0,block.width,block.height⟩ : Region).Has coord :=
    @coordsWhole block.toSize narrow low high coord
  have placed (coord) (inside : coord ∈ coords block.toSize) :
      block.topLeft.add coord = ⟨block.x + coord.x,block.y + coord.y⟩ ∧
        corner.add coord = ⟨corner.x + coord.x,corner.y + coord.y⟩ := by
    obtain ⟨a,b,c,d⟩ := (listed coord).mp inside
    simp only at a b c d
    exact ⟨addFits ⟨by simp only [Region.topLeft]; omega,by simp only [Region.topLeft]; omega⟩
      ⟨by simp only [Region.topLeft]; omega,by simp only [Region.topLeft]; omega⟩,
      addFits ⟨by omega,by omega⟩ ⟨by omega,by omega⟩⟩
  have before (coord) (inside : coord ∈ coords block.toSize) :
      (block.topLeft.add coord).x < dest.region.width ∧
        dest.region.width - (block.topLeft.add coord).x < 18446744073709551616 := by
    obtain ⟨a,b,_,_⟩ := (listed coord).mp inside
    rw [(placed coord inside).1]
    simp only at a b ⊢
    omega
  obtain ⟨out,copies,region,format,set,kept⟩ := @convertTraced dest fb known corner block _ before
  refine ⟨out,copies,region,format,fun p has => ?_,fun p outside => kept p fun coord inside there => ?_⟩
  · have here : (⟨p.x - block.x,p.y - block.y⟩ : Point) ∈ coords block.toSize := by
      obtain ⟨a,b,c,d⟩ := has
      refine (listed _).mpr ⟨?_,?_,?_,?_⟩ <;> simp only <;> omega
    obtain ⟨coord,inside,there,pixel⟩ := set p ⟨_,here,by rw [(placed _ here).1]; simp⟩
    rw [(placed coord inside).1] at there
    rw [pixel,(placed coord inside).2,← there]
    simp [sourceOf,Region.topLeft]
  · obtain ⟨a,b,c,d⟩ := (listed coord).mp inside
    rw [(placed coord inside).1] at there
    refine outside ?_
    rw [← there]
    simp only [Region.Has] at a b c d ⊢
    omega

theorem blocksCopied (known : Known dest.format) (wide : dest.region.width < 65536) {corner : Region → Point}
    (blocks : List Region) (each : ∀ block ∈ blocks, block.x + block.width ≤ dest.region.width ∧
      Countable (corner block) block ∧ sourceOf (corner block) block.topLeft = source) :
    ∃ out, blocks.foldlM (fun dest block => convertBlock fb (corner block) block dest) dest = some out ∧
      Copied dest fb (fun p => ∃ block ∈ blocks, block.Has p) source out := by
  induction blocks generalizing dest with
  | nil => exact ⟨dest,rfl,copiedNothing (by simp)⟩
  | cons block rest ih =>
    obtain ⟨⟨inFrame,countable,from_⟩,later⟩ := List.forall_mem_cons.mp each
    obtain ⟨mid,first,one⟩ := @blockCopied dest fb known wide (corner block) block inFrame countable
    have known' : Known mid.format := one.format ▸ known
    obtain ⟨out,others,two⟩ := ih known' (one.region ▸ wide) (one.region ▸ later)
    refine ⟨out,by rw [List.foldlM_cons,first]; exact others,copiedSame (copiedTwice (from_ ▸ one) two) ?_ ?_⟩
    · exact fun p => by simp
    · exact fun _ _ => rfl

end

/-! When the copy is right. -/

/- What lies in both is what should be set, and the copy starts at the position. -/
structure Aligned (destination source reg : Region) (pos : Point) : Prop where
  whole : ∀ p, Wanted destination source reg pos p ↔ (target reg pos).Has p ∧ destination.Has p
  corner : ∀ p, Wanted destination source reg pos p → destination.x ≤ pos.x ∧ destination.y ≤ pos.y

/- What lies in both can be counted through, in the destination and in the source. -/
def Counted (destination reg : Region) (pos : Point) : Prop :=
  let dst := (target reg pos).intersected destination
  dst.isEmpty = true ∨ (dst.x + dst.width ≤ 32768 ∧ dst.y + dst.height ≤ 32768 ∧
    reg.x + dst.width ≤ 32768 ∧ reg.y + dst.height ≤ 32768 ∧ (dst.width < 32768 ∨ dst.height = 1))
instance (destination reg pos) : Decidable (Counted destination reg pos) := by unfold Counted; infer_instance

section
variable {destination source reg : Region} {pos : Point}

theorem commonHas {r other : Region} (wide : r.width < 65536) (high : r.height < 65536) (p : Point) :
    (r.intersected other).Has p ↔ r.Has p ∧ other.Has p := by
  refine ⟨intersectedSub,fun ⟨has,hasToo⟩ => ?_⟩
  have meet := intersectsOf has hasToo
  obtain ⟨_,across,down⟩ := intersectsMeet meet
  have width := @toUInt16Kept (min (r.x + r.width) (other.x + other.width) - max r.x other.x) (by omega) (by omega)
  have height := @toUInt16Kept (min (r.y + r.height) (other.y + other.height) - max r.y other.y) (by omega) (by omega)
  simp only [Region.intersected,meet,if_true,Region.Has,width,height] at has hasToo ⊢
  omega

theorem filledHas {r : Region} (filled : ¬r.isEmpty = true) : 0 < r.width ∧ 0 < r.height := by
  simp only [Region.isEmpty,Bool.or_eq_true,decide_eq_true_eq,not_or] at filled
  omega

/- The pixels between the corners, with the position among them. -/
theorem alignedCorner (wide : reg.width < 65536) (high : reg.height < 65536)
    (aligned : Aligned destination source reg pos)
    (filled : ¬((target reg pos).intersected destination).isEmpty = true) :
    ((target reg pos).intersected destination).topLeft = pos := by
  have has := topLeftHas (filledHas filled)
  have both := (@commonHas (target reg pos) destination wide high _).mp has
  obtain ⟨left,top⟩ := aligned.corner _ ((aligned.whole _).mpr both)
  obtain ⟨x,y,_,_⟩ := intersectedCommon (intersectsOf both.1 both.2)
  obtain ⟨px,py⟩ := pos
  simp only [target] at x y left top ⊢
  simp only [Region.topLeft,Point.mk.injEq]
  omega

theorem alignedInside (wide : reg.width < 65536) (high : reg.height < 65536)
    (aligned : Aligned destination source reg pos)
    (filled : ¬((target reg pos).intersected destination).isEmpty = true) :
    (0 ≤ ((target reg pos).intersected destination).x ∧ 0 ≤ ((target reg pos).intersected destination).y) ∧
      ((target reg pos).intersected destination).x + ((target reg pos).intersected destination).width ≤
        destination.width ∧ 0 ≤ reg.x ∧ 0 ≤ reg.y := by
  have corner := alignedCorner wide high aligned filled
  generalize same : (target reg pos).intersected destination = dst at *
  have some := filledHas filled
  have wanted (p : Point) (has : dst.Has p) : Wanted destination source reg pos p := by
    rw [← same] at has
    exact (aligned.whole p).mpr ((@commonHas (target reg pos) destination wide high p).mp has)
  obtain ⟨_,⟨left,_,top,_⟩,⟨left',_,top',_⟩⟩ := wanted _ (topLeftHas some)
  obtain ⟨_,⟨_,right,_,_⟩,_⟩ := wanted ⟨dst.x + dst.width - 1,dst.y⟩ (by simp only [Has]; omega)
  rw [corner] at left' top'
  simp only [inner,sourceOf,Region.topLeft] at left top left' top' right
  omega

theorem wantedSame (wide : reg.width < 65536) (high : reg.height < 65536)
    (aligned : Aligned destination source reg pos) (p : Point) :
    ((target reg pos).intersected destination).Has p ↔ Wanted destination source reg pos p :=
  (@commonHas (target reg pos) destination wide high p).trans (aligned.whole p).symm

end

section
variable {cpu : Machine} {dest fb : FrameBuffer} {reg : Region} {pos : Point}

theorem emptyBlits (wide : reg.width < 65536) (high : reg.height < 65536)
    (aligned : Aligned dest.region fb.region reg pos)
    (empty : ((target reg pos).intersected dest.region).isEmpty = true) : Blits cpu dest fb reg pos :=
  ⟨dest,if_pos empty,copiedNothing fun p wanted => nobodyHas empty ((wantedSame wide high aligned p).mpr wanted)⟩

/- What is copied from the corner of the common part on is copied from the position on. -/
theorem copiedBlits (wide : reg.width < 65536) (high : reg.height < 65536)
    (aligned : Aligned dest.region fb.region reg pos)
    (filled : ¬((target reg pos).intersected dest.region).isEmpty = true) {out : FrameBuffer}
    (copies : blitRegion cpu dest fb reg pos = some out)
    (copied : Copied dest fb ((target reg pos).intersected dest.region).Has
      (sourceOf reg.topLeft ((target reg pos).intersected dest.region).topLeft) out) : Blits cpu dest fb reg pos :=
  ⟨out,copies,copiedSame copied (wantedSame wide high aligned)
    fun p _ => by rw [alignedCorner wide high aligned filled]⟩

theorem sameCopied (held : Held fb) (same : dest.format = fb.format) :
    ∃ out, blitRegion cpu dest fb reg pos = some out ∧ Copied dest fb ((target reg pos).intersected dest.region).Has
      (sourceOf reg.topLeft ((target reg pos).intersected dest.region).topLeft) out := by
  by_cases empty : ((target reg pos).intersected dest.region).isEmpty = true
  · exact ⟨dest,if_pos empty,copiedNothing fun _ => nobodyHas empty⟩
  · refine ⟨_,?_,rowsCopied same held reg _⟩
    rw [blitRegion,if_neg empty,if_neg (not_not.mpr same)]

theorem sameBlits (wide : reg.width < 65536) (high : reg.height < 65536)
    (aligned : Aligned dest.region fb.region reg pos) (held : Held fb) (same : dest.format = fb.format) :
    Blits cpu dest fb reg pos := by
  by_cases empty : ((target reg pos).intersected dest.region).isEmpty = true
  · exact emptyBlits wide high aligned empty
  · obtain ⟨out,made,copied⟩ := @sameCopied cpu dest fb reg pos held same
    exact copiedBlits wide high aligned empty made copied

/- A part of what can be counted can be, and is read where the whole would be. -/
theorem partCountable {dst block : Region} (left : 0 ≤ dst.x ∧ 0 ≤ dst.y) (corner : 0 ≤ reg.x ∧ 0 ≤ reg.y)
    (right : dst.x + dst.width ≤ 32768 ∧ reg.x + dst.width ≤ 32768)
    (bottom : dst.y + dst.height ≤ 32768 ∧ reg.y + dst.height ≤ 32768)
    (within : block.Within dst) (filled : 0 < block.width ∧ 0 < block.height) (half : block.width < 32768) :
    Countable (partCorner reg dst block) block ∧
      sourceOf (partCorner reg dst block) block.topLeft = sourceOf reg.topLeft dst.topLeft := by
  obtain ⟨west,north,east,south⟩ := within
  have offset : Point.sub block.topLeft dst.topLeft = ⟨block.x - dst.x,block.y - dst.y⟩ := by
    simp only [Point.sub,Region.topLeft]
    rw [toInt16Fits (by omega) (by omega),toInt16Fits (by omega) (by omega)]
  have corner : partCorner reg dst block = ⟨reg.x + (block.x - dst.x),reg.y + (block.y - dst.y)⟩ := by
    rw [partCorner,offset]
    exact addFits ⟨by simp only [Region.topLeft]; omega,by simp only [Region.topLeft]; omega⟩
      ⟨by simp only [Region.topLeft]; omega,by simp only [Region.topLeft]; omega⟩
  rw [corner]
  refine ⟨⟨⟨by omega,by simp only; omega⟩,⟨by omega,by simp only; omega⟩,⟨by omega,by simp only; omega⟩,
    ⟨by omega,by simp only; omega⟩,.inl half,by omega,by omega⟩,?_⟩
  funext p
  simp only [sourceOf,Region.topLeft,Point.mk.injEq]
  omega

theorem regionCopied {dst : Region} (known : Known dest.format) (frame : dest.region.width < 65536)
    (left : 0 ≤ dst.x ∧ 0 ≤ dst.y) (corner : 0 ≤ reg.x ∧ 0 ≤ reg.y) (inFrame : dst.x + dst.width ≤ dest.region.width)
    (right : dst.x + dst.width ≤ 32768 ∧ reg.x + dst.width ≤ 32768)
    (bottom : dst.y + dst.height ≤ 32768 ∧ reg.y + dst.height ≤ 32768) (narrow : dst.width < 32768 ∨ dst.height = 1) :
    ∃ out, convertRegion cpu fb reg dst dest = some out ∧
      Copied dest fb dst.Has (sourceOf reg.topLeft dst.topLeft) out := by
  by_cases splits : cpu.splits reg = true
  · have fits : dst.Fits := ⟨left.1,left.2,right.1,bottom.1⟩
    obtain ⟨someCols,someRows⟩ := countsPositive dst Nat.two_pos Nat.two_pos
    obtain ⟨blocks,divides,tiles,_⟩ := divisibleTiles (divisible fits (countsSize dst 2 2)) someCols someRows
    have each (block) (listed : block ∈ blocks) : block.x + block.width ≤ dest.region.width ∧
        Countable (partCorner reg dst block) block ∧
        sourceOf (partCorner reg dst block) block.topLeft = sourceOf reg.topLeft dst.topLeft := by
      have within := tiles.within block listed
      have half : block.width < 32768 := by
        have slim := (tiles.narrow block listed).1
        simp only [countsSize] at slim
        split at slim <;> omega
      exact ⟨within.right.trans inFrame,
        partCountable left corner right bottom within (tiles.filled block listed) half⟩
    obtain ⟨out,made,copied⟩ := @blocksCopied dest fb _ known frame (partCorner reg dst) blocks each
    have divides' : dst.divideCounts 2 2 = some blocks := divides
    refine ⟨out,?_,copiedSame copied (fun p => tilesHas tiles) fun _ _ => rfl⟩
    rw [convertRegion,if_pos splits,divides']
    exact made
  · have countable : Countable reg.topLeft dst := by
      refine ⟨⟨by omega,?_⟩,⟨by omega,?_⟩,right,bottom,narrow,by omega,by omega⟩
      · simp only [Region.topLeft]
        omega
      · simp only [Region.topLeft]
        omega
    rw [convertRegion,if_neg splits]
    exact @blockCopied dest fb known frame reg.topLeft dst inFrame countable

theorem otherBlits (wide : reg.width < 65536) (high : reg.height < 65536) (frame : dest.region.width < 65536)
    (aligned : Aligned dest.region fb.region reg pos) (counted : Counted dest.region reg pos) (held : Held dest)
    (differ : dest.format ≠ fb.format) : Blits cpu dest fb reg pos := by
  by_cases empty : ((target reg pos).intersected dest.region).isEmpty = true
  · exact emptyBlits wide high aligned empty
  obtain ⟨left,inFrame,corner⟩ := alignedInside wide high aligned empty
  obtain ⟨right,bottom,regRight,regBottom,narrow⟩ := counted.resolve_left empty
  obtain ⟨out,made,copied⟩ := @regionCopied cpu dest fb reg _ (heldKnown held) frame left corner inFrame
    ⟨right,regRight⟩ ⟨bottom,regBottom⟩ narrow
  refine copiedBlits wide high aligned empty ?_ copied
  rw [blitRegion,if_neg empty,if_pos differ]
  exact made

end

/- For a buffer that begins at the origin: nothing of the target lies in it, or the
position does and all that is copied there is in the source. -/
theorem alignedOrigin {destination source reg : Region} {pos : Point} (origin : destination.x = 0 ∧ destination.y = 0)
    (wide : reg.width < 65536) (high : reg.height < 65536) : Aligned destination source reg pos ↔
      let dst := (target reg pos).intersected destination
      dst.isEmpty = true ∨ ((0 ≤ pos.x ∧ 0 ≤ pos.y) ∧ (0 ≤ reg.x ∧ 0 ≤ reg.y) ∧
        reg.x + dst.width ≤ source.width ∧ reg.y + dst.height ≤ source.height) := by
  have common := @commonHas (target reg pos) destination wide high
  have same (p : Point) : (inner destination).Has p ↔ destination.Has p := by
    simp only [inner,Has]
    omega
  constructor
  · intro aligned
    refine or_iff_not_imp_left.mpr fun filled => ?_
    have corner := alignedCorner wide high aligned filled
    obtain ⟨⟨left,top⟩,_,regLeft,regTop⟩ := alignedInside wide high aligned filled
    have wanted (p) := (wantedSame wide high aligned p).mp
    generalize (target reg pos).intersected destination = dst at *
    obtain ⟨some,someToo⟩ := filledHas filled
    obtain ⟨_,_,_,right,_,bottom⟩ := wanted ⟨dst.x + dst.width - 1,dst.y + dst.height - 1⟩
      ⟨by simp only; omega,by simp only; omega,by simp only; omega,by simp only; omega⟩
    obtain ⟨px,py⟩ := pos
    obtain ⟨cornerX,cornerY⟩ := Point.mk.inj corner
    simp only [inner,sourceOf,Region.topLeft] at right bottom ⊢
    omega
  · rintro (empty | ⟨⟨left,top⟩,⟨regLeft,regTop⟩,right,bottom⟩)
    · have nobody (p : Point) : ¬((target reg pos).Has p ∧ destination.Has p) := (common p).not.mp (nobodyHas empty)
      exact ⟨fun p => ⟨fun wanted => ⟨wanted.1,(same p).mp wanted.2.1⟩,fun both => absurd both (nobody p)⟩,
        fun p wanted => absurd ⟨wanted.1,(same p).mp wanted.2.1⟩ (nobody p)⟩
    · refine ⟨fun p => ⟨fun wanted => ⟨wanted.1,(same p).mp wanted.2.1⟩,fun both => ⟨both.1,(same p).mpr both.2,?_⟩⟩,
        fun p _ => by omega⟩
      obtain ⟨west,east,north,south⟩ := (common p).mpr both
      obtain ⟨cornerX,cornerY,_,_⟩ := intersectedCommon (intersectsOf both.1 both.2)
      have corner : (target reg pos).x = pos.x ∧ (target reg pos).y = pos.y := ⟨rfl,rfl⟩
      obtain ⟨⟨fromX,_,fromY,_⟩,_⟩ := both
      simp only [inner,sourceOf,Region.topLeft,Has]
      omega

/-! What goes wrong elsewhere, from what single pixels become. -/

/- Buffers in these regions. -/
structure Between (destination source : Region) (dest fb : FrameBuffer) : Prop where
  destination : dest.region = destination
  source : fb.region = source
  held : Held dest
  heldToo : Held fb

def oneCore : Machine := ⟨1,.unchanged⟩

/- A source that shows one pixel on another. -/
def spotted (source : Region) (pf : PixelFormat) (spot : Point) (pixel other : UInt32) : FrameBuffer :=
  ⟨source,pf,fun p => if p = spot then pixel else other⟩

section
variable {destination source reg : Region} {pos : Point}

theorem held32 {region : Region} {pf : PixelFormat} (full : pf.bitsPixel = 32) (pixels : Point → UInt32) :
    Held ⟨region,pf,pixels⟩ := by
  intro p
  rw [full]
  rfl

def blank (destination : Region) : FrameBuffer := ⟨destination,serverBGRX32,fun _ => 0⟩

theorem spotConverted (spot : Point) (pixel other : UInt32) (p : Point) :
    converted (blank destination) (spotted source serverBGRX32 spot pixel other) p =
      some (if p = spot then pixel else other) := by
  have same : (blank destination).format.convertFrom (spotted source serverBGRX32 spot pixel other).format = id :=
    funext fun pixel => convertSelf serverBGRX32 pixel
  rw [converted,same]
  rfl

/- What is copied, and what should be. -/
theorem spotCopied
    (blits : ∀ dest fb, Between destination source dest fb → dest.format = fb.format → Blits oneCore dest fb reg pos)
    (spot : Point) (pixel other : UInt32) : ∃ out : FrameBuffer,
      Copied (blank destination) (spotted source serverBGRX32 spot pixel other)
        ((target reg pos).intersected destination).Has
        (sourceOf reg.topLeft ((target reg pos).intersected destination).topLeft) out ∧
      Copied (blank destination) (spotted source serverBGRX32 spot pixel other) (Wanted destination source reg pos)
        (sourceOf reg.topLeft pos) out := by
  obtain ⟨out,made,copied⟩ := @sameCopied oneCore (blank destination) (spotted source serverBGRX32 spot pixel other)
    reg pos (held32 rfl _) rfl
  obtain ⟨out',made',copied'⟩ := blits (blank destination) (spotted source serverBGRX32 spot pixel other)
    ⟨rfl,rfl,held32 rfl _,held32 rfl _⟩ rfl
  cases Option.some.inj (made.symm.trans made')
  exact ⟨out,copied,copied'⟩

theorem alignedOf (wide : reg.width < 65536) (high : reg.height < 65536)
    (blits : ∀ dest fb, Between destination source dest fb → dest.format = fb.format → Blits oneCore dest fb reg pos) :
    Aligned destination source reg pos := by
  have whole (p : Point) : Wanted destination source reg pos p ↔
      ((target reg pos).intersected destination).Has p := by
    obtain ⟨out,copied,copied'⟩ := spotCopied blits ⟨0,0⟩ 1 1
    have one (q : Point) : converted (blank destination) (spotted source serverBGRX32 ⟨0,0⟩ 1 1) q = some 1 := by
      rw [spotConverted,ite_self]
    constructor
    · intro wanted
      by_contra outside
      have set := (copied'.set p wanted).trans (one _)
      rw [copied.kept p outside] at set
      cases set
    · intro has
      by_contra unwanted
      have set := (copied.set p has).trans (one _)
      rw [copied'.kept p unwanted] at set
      cases set
  refine ⟨fun p => (whole p).trans (@commonHas (target reg pos) destination wide high p),fun p wanted => ?_⟩
  obtain ⟨out,copied,copied'⟩ := spotCopied blits (sourceOf reg.topLeft pos p) 1 0
  have has := (whole p).mp wanted
  have both := (copied.set p has).symm.trans (copied'.set p wanted)
  rw [spotConverted,spotConverted,if_pos rfl] at both
  obtain ⟨inTarget,inside⟩ := (@commonHas (target reg pos) destination wide high p).mp has
  obtain ⟨left,top,_,_⟩ := intersectedCommon (intersectsOf inTarget inside)
  have here : sourceOf reg.topLeft ((target reg pos).intersected destination).topLeft p = sourceOf reg.topLeft pos p := by
    by_contra other
    rw [if_neg other] at both
    cases both
  have corner : (target reg pos).x = pos.x ∧ (target reg pos).y = pos.y := ⟨rfl,rfl⟩
  simp only [sourceOf,Region.topLeft,Point.mk.injEq] at here
  omega

/- Red and blue the other way round. -/
def swapped : PixelFormat := ⟨255,255,255,0,0,8,16,32,32⟩

theorem swappedConverts : serverBGRX32.convertFrom swapped 1 = 0x10000 ∧ serverBGRX32.convertFrom swapped 0 = 0 := by
  decide +kernel

theorem toInt16Le {value : Int} (low : -32768 ≤ value) : toInt16 value ≤ value := by
  have range := Int.bmod_def value 65536
  unfold toInt16
  split at range <;> omega

/- Each pixel of the common part is reached, and from where it should be. -/
theorem reachedFrom (wide : reg.width < 65536) (high : reg.height < 65536) (frame : destination.width < 65536)
    (aligned : Aligned destination source reg pos)
    (blits : ∀ dest fb, Between destination source dest fb → dest.format ≠ fb.format → Blits oneCore dest fb reg pos)
    {p : Point} (has : ((target reg pos).intersected destination).Has p) :
    ∃ coord ∈ coords ((target reg pos).intersected destination).toSize,
      ((target reg pos).intersected destination).topLeft.add coord = p ∧
      reg.topLeft.add coord = sourceOf reg.topLeft pos p := by
  have filled : ¬((target reg pos).intersected destination).isEmpty = true := fun empty => nobodyHas empty has
  have wanted := (wantedSame wide high aligned p).mp has
  obtain ⟨⟨left,top⟩,inFrame,_,_⟩ := alignedInside wide high aligned filled
  let dest : FrameBuffer := ⟨destination,serverBGRX32,fun _ => 0⟩
  let fb := spotted source swapped (sourceOf reg.topLeft pos p) 1 0
  have differ : dest.format ≠ fb.format := show serverBGRX32 ≠ swapped by decide
  have value (q : Point) : converted dest fb q = some (serverBGRX32.convertFrom swapped (fb.pixel q)) := rfl
  obtain ⟨out,made,copied⟩ := blits dest fb ⟨rfl,rfl,held32 rfl _,held32 rfl _⟩ differ
  have copies : blitRegion oneCore dest fb reg pos =
      convertBlock fb reg.topLeft ((target reg pos).intersected destination) dest := by
    rw [blitRegion,if_neg filled,if_pos differ]
    rfl
  generalize (target reg pos).intersected destination = dst at *
  have before (coord) (inside : coord ∈ coords dst.toSize) : (dst.topLeft.add coord).x < dest.region.width ∧
      dest.region.width - (dst.topLeft.add coord).x < 18446744073709551616 := by
    obtain ⟨a,b,_,_⟩ := coordsValid inside
    have below := @toInt16Le (dst.x + coord.x) (by simp only at a; omega)
    obtain ⟨above,_⟩ := toInt16Range (dst.x + coord.x)
    have region : dest.region.width = destination.width := rfl
    simp only [Region.toSize] at a b
    simp only [Point.add,Region.topLeft]
    omega
  obtain ⟨out',made',_,_,traced,untouched⟩ := @convertTraced dest fb (heldKnown (held32 rfl _)) reg.topLeft dst _ before
  cases Option.some.inj (made.symm.trans (copies.trans made'))
  have pixel : some (out.pixel p) = some 0x10000 := by
    have spot : fb.pixel (sourceOf reg.topLeft pos p) = 1 := if_pos rfl
    rw [copied.set p wanted,value,spot,swappedConverts.1]
  have reached : ∃ coord ∈ coords dst.toSize, dst.topLeft.add coord = p := by
    by_contra missed
    have blank := untouched p fun coord inside here => missed ⟨coord,inside,here⟩
    rw [blank] at pixel
    cases pixel
  obtain ⟨coord,inside,here,from_⟩ := traced p reached
  refine ⟨coord,inside,here,?_⟩
  by_contra other
  have nothing : fb.pixel (reg.topLeft.add coord) = 0 := if_neg other
  rw [pixel,value,nothing,swappedConverts.2] at from_
  cases from_

theorem countedOf (wide : reg.width < 65536) (high : reg.height < 65536) (frame : destination.width < 65536)
    (aligned : Aligned destination source reg pos)
    (blits : ∀ dest fb, Between destination source dest fb → dest.format ≠ fb.format → Blits oneCore dest fb reg pos) :
    Counted destination reg pos := by
  refine or_iff_not_imp_left.mpr fun filled => ?_
  have corner := alignedCorner wide high aligned filled
  obtain ⟨⟨left,top⟩,_,_,_⟩ := alignedInside wide high aligned filled
  have reached (p) := @reachedFrom destination source reg pos wide high frame aligned blits p
  generalize (target reg pos).intersected destination = dst at *
  obtain ⟨some,someToo⟩ := filledHas filled
  obtain ⟨px,py⟩ := pos
  obtain ⟨cornerX,cornerY⟩ := Point.mk.inj corner
  -- the last pixel, where it is set and where it is read
  obtain ⟨last,_,here,from_⟩ := reached ⟨dst.x + dst.width - 1,dst.y + dst.height - 1⟩
    ⟨by simp only; omega,by simp only; omega,by simp only; omega,by simp only; omega⟩
  obtain ⟨hereX,hereY⟩ := Point.mk.inj here
  obtain ⟨fromX,fromY⟩ := Point.mk.inj from_
  have setX := (toInt16Range (dst.topLeft.x + last.x)).2
  have setY := (toInt16Range (dst.topLeft.y + last.y)).2
  have readX := (toInt16Range (reg.topLeft.x + last.x)).2
  have readY := (toInt16Range (reg.topLeft.y + last.y)).2
  rw [hereX] at setX
  rw [hereY] at setY
  rw [fromX] at readX
  rw [fromY] at readY
  simp only [Region.topLeft] at setX setY readX readY
  refine ⟨by omega,by omega,by omega,by omega,?_⟩
  by_contra broad
  obtain ⟨coord,inside,second,_⟩ := reached ⟨dst.x,dst.y + 1⟩
    ⟨by simp only; omega,by simp only; omega,by simp only; omega,by simp only; omega⟩
  have row : coord.y = 0 := @coordsFirstRow dst.toSize (by simp only [Region.toSize]; omega) _ _ coord rfl inside
  have secondY := (Point.mk.inj second).2
  rw [row,Int.add_zero] at secondY
  have same : toInt16 dst.topLeft.y = dst.y := toInt16Fits (by simp only [Region.topLeft]; omega) (by simp only [Region.topLeft]; omega)
  omega

end

/- Between buffers of one format, and of all pairs of formats. -/
theorem blitsIff (destination source reg : Region) (pos : Point) (frame : Stored destination) (area : Stored reg) :
    ((∀ cpu dest fb, Between destination source dest fb → dest.format = fb.format → Blits cpu dest fb reg pos) ↔
      Aligned destination source reg pos) ∧
    ((∀ cpu dest fb, Between destination source dest fb → Blits cpu dest fb reg pos) ↔
      Aligned destination source reg pos ∧ Counted destination reg pos) := by
  have same (aligned : Aligned destination source reg pos) (cpu : Machine) (dest fb : FrameBuffer)
      (between : Between destination source dest fb) (formats : dest.format = fb.format) : Blits cpu dest fb reg pos := by
    obtain ⟨rfl,rfl,_,held⟩ := between
    exact sameBlits area.wide area.high aligned held formats
  refine ⟨⟨fun blits => alignedOf area.wide area.high (blits oneCore),same⟩,fun blits => ?_,?_⟩
  · have aligned := alignedOf area.wide area.high fun dest fb between _ => blits oneCore dest fb between
    exact ⟨aligned,countedOf area.wide area.high frame.wide aligned fun dest fb between _ => blits oneCore dest fb between⟩
  · rintro ⟨aligned,counted⟩ cpu dest fb between
    by_cases formats : dest.format = fb.format
    · exact same aligned cpu dest fb between formats
    · obtain ⟨rfl,rfl,held,_⟩ := between
      exact otherBlits area.wide area.high frame.wide aligned counted held formats

theorem blitsInside : Aligned ⟨0,0,8,8⟩ ⟨0,0,4,4⟩ ⟨1,1,3,3⟩ ⟨6,2⟩ ∧
    ∀ cpu dest fb, Between ⟨0,0,8,8⟩ ⟨0,0,4,4⟩ dest fb → Blits cpu dest fb ⟨1,1,3,3⟩ ⟨6,2⟩ := by
  have aligned : Aligned ⟨0,0,8,8⟩ ⟨0,0,4,4⟩ ⟨1,1,3,3⟩ ⟨6,2⟩ :=
    (alignedOrigin ⟨rfl,rfl⟩ (by decide) (by decide)).mpr (by decide)
  exact ⟨aligned,(blitsIff ⟨0,0,8,8⟩ ⟨0,0,4,4⟩ ⟨1,1,3,3⟩ ⟨6,2⟩ (by decide) (by decide)).2.mpr ⟨aligned,by decide⟩⟩

/- A target that begins a column to the left of the buffer; its second column shows the
first one of the source. -/
theorem notShifted :
    (blitRegion oneCore ⟨⟨0,0,4,4⟩,serverBGRX32,fun _ => 0⟩ (spotted ⟨0,0,4,4⟩ serverBGRX32 ⟨1,0⟩ 7 3)
      ⟨0,0,2,1⟩ ⟨-1,0⟩).map (fun out => out.pixel ⟨0,0⟩) = some 3 ∧
    ¬∀ cpu dest fb reg pos, Stored dest.region → Stored fb.region → Stored reg →
      toInt16 pos.x = pos.x ∧ toInt16 pos.y = pos.y → Held dest → Held fb → Blits cpu dest fb reg pos := by
  have shown : (blitRegion oneCore ⟨⟨0,0,4,4⟩,serverBGRX32,fun _ => 0⟩ (spotted ⟨0,0,4,4⟩ serverBGRX32 ⟨1,0⟩ 7 3)
      ⟨0,0,2,1⟩ ⟨-1,0⟩).map (fun out => out.pixel ⟨0,0⟩) = some 3 := by decide +kernel
  refine ⟨shown,fun all => ?_⟩
  obtain ⟨out,made,copied⟩ := all oneCore ⟨⟨0,0,4,4⟩,serverBGRX32,fun _ => 0⟩
    (spotted ⟨0,0,4,4⟩ serverBGRX32 ⟨1,0⟩ 7 3) ⟨0,0,2,1⟩ ⟨-1,0⟩ (by decide) (show Stored ⟨0,0,4,4⟩ by decide) (by decide)
    (by decide) (held32 rfl _) (held32 rfl _)
  have three : out.pixel ⟨0,0⟩ = 3 := by
    rw [made] at shown
    exact Option.some.inj shown
  have seven := copied.set ⟨0,0⟩ (show Wanted ⟨0,0,4,4⟩ ⟨0,0,4,4⟩ ⟨0,0,2,1⟩ ⟨-1,0⟩ ⟨0,0⟩ by decide)
  rw [three] at seven
  exact absurd seven (by decide +kernel)

end Ltsm.BlitRegion
