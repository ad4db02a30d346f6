import Ltsm.Library.Blocks
import Ltsm.Library.Tally
import Ltsm.UpdateMessages

/-! Frame buffers: the server's pixels of a part of the screen, what the encodings
count in them, and the client's screen. A machine has a number of cores, which
decides whether the work on a region is split, and an order for its hash maps. -/
namespace Ltsm.FrameBuffers
open Library Regions PixelFormats PixelStreams UpdateMessages

structure Machine where
  cores : Nat
  hash : HashOrder UInt32

/- The pixels are addressed relative to the corner of the region. -/
structure FrameBuffer where
  region : Region
  format : PixelFormat
  pixels : Point → UInt32

/- The product is an `int`. -/
def isLarge (reg : Region) : Bool := 1024 < wrapInt (reg.width * reg.height)

def Machine.splits (cpu : Machine) (reg : Region) : Bool := 2 < cpu.cores && isLarge reg

namespace FrameBuffer

def pixel (fb : FrameBuffer) (pos : Point) : UInt32 := fb.pixels pos

/- What is left of a pixel in the bits of the buffer. -/
def rawPixel (bitsPixel : Nat) (pixel : UInt32) : Option UInt32 :=
  match bitsPixel with
  | 32 => some pixel
  | 24 => some (pixel &&& 0xFFFFFF)
  | 16 => some (pixel &&& 0xFFFF)
  | 8 => some (pixel &&& 0xFF)
  | _ => none

/- The length is cut off at the right side of the frame; it is a size_t, and a row that
begins behind that side is not cut off at all. -/
def setPixelRow (fb : FrameBuffer) (pos : Point) (pixel : UInt32) (length : Nat) : Option FrameBuffer := do
  let raw ← rawPixel fb.format.bitsPixel pixel
  let length := min length ((fb.region.width - pos.x) % 18446744073709551616).toNat
  some {fb with pixels := fun p => if p.y = pos.y ∧ pos.x ≤ p.x ∧ p.x < pos.x + length then raw else fb.pixels p}

def setPixel (fb : FrameBuffer) (pos : Point) (pixel : UInt32) : Option FrameBuffer := fb.setPixelRow pos pixel 1

def color (fb : FrameBuffer) (pos : Point) : Color := fb.format.color (fb.pixel pos)

/- The corners and the middle are looked up as if the region began at the corner of
the frame; the first one is looked up twice. -/
def fastChecks (reg : Region) : List Point :=
  [⟨toInt16 (reg.width - 1),0⟩,⟨toInt16 (reg.width - 1),0⟩,⟨0,toInt16 (reg.height - 1)⟩,
    ⟨toInt16 (reg.width - 1),toInt16 (reg.height - 1)⟩,
    ⟨toInt16 (reg.width / 2 : Nat),toInt16 (reg.height / 2 : Nat)⟩]

def allOfPixel (fb : FrameBuffer) (pix : UInt32) (reg : Region) : Bool :=
  (!isLarge reg || (fastChecks reg).all fun p => pix == fb.pixel p) &&
    reg.points.all fun p => pix == fb.pixel p

def quarter (reg : Region) : Size := ⟨reg.width,reg.height / 4⟩

def regionMap (weight : Nat) (fb : FrameBuffer) (reg : Region) : List (UInt32 × Nat) :=
  reg.points.foldl (fun map p => tally weight (fb.pixel p) map) []

/- The two maps of pixels are made the same way, each pixel with its weight. -/
def pixelMap (weight : Nat) (fb : FrameBuffer) (cpu : Machine) (reg : Region) :
    Option (List (UInt32 × Nat)) :=
  if cpu.splits reg then do
    let blocks ← reg.divideBlocks (quarter reg)
    some (blocks.foldl (fun map block => (cpu.hash.order (regionMap weight fb block)).foldl
      (fun map entry => tally entry.2 entry.1 map) map) [])
  else some (regionMap weight fb reg)

def pixelMapWeight (fb : FrameBuffer) (cpu : Machine) (reg : Region) : Option (List (UInt32 × Nat)) :=
  pixelMap 1 fb cpu reg

/- The pixels in the order of the map, which numbers them. -/
def pixelMapPalette (fb : FrameBuffer) (cpu : Machine) (reg : Region) : Option (List (UInt32 × Nat)) := do
  let map ← pixelMap 0 fb cpu reg
  some ((keys (cpu.hash.order map)).zipIdx)

end FrameBuffer

def maxWeightPixel (cpu : Machine) (map : List (UInt32 × Nat)) : UInt32 :=
  ((maxEntry (cpu.hash.order map)).map Prod.fst).getD 0

/-! The client's screen. -/

abbrev Screen := Point → UInt32

def fillPixel (reg : Region) (pixel : UInt32) (s : Screen) : Screen :=
  fun p => if reg.Has p then pixel else s p

def setPixel (pos : Point) (pixel : UInt32) (s : Screen) : Screen :=
  fun p => if p = pos then pixel else s p

/- Rows of native words. -/
def updateRawPixels (be : Bool) (reg : Region) (buf : Bytes) (pitch : Nat) (s : Screen) : Screen :=
  fun p => if reg.Has p then
    ofWordBytes be ((buf.drop ((p.y - reg.y).toNat * pitch + (p.x - reg.x).toNat * 4)).take 4)
  else s p

/- What the screen should show where the frame lies. -/
def FrameBuffer.source (fb : FrameBuffer) : Screen :=
  fun p => fb.pixels ⟨p.x - fb.region.x,p.y - fb.region.y⟩

/- The blocks of the region go to jobs of their own, relative to its corner; each
comes back with its place on the screen. A job that throws ends the update. -/
def FrameBuffer.sendTiles (fb : FrameBuffer) (enc : Encoding) (bsz : Size)
    (sendRegion : Region → Option Bytes) : Option (List Rect) := do
  let regions ← fb.region.divideBlocks bsz
  regions.mapM fun reg => do
    let job := reg.sub fb.region.topLeft
    let data ← sendRegion job
    some ⟨enc.code,job.add fb.region.topLeft,data⟩

/- One pixel in front of the right side of the frame. -/
theorem setPixelInside {fb : FrameBuffer} {pos : Point} {raw pixel : UInt32}
    (keeps : FrameBuffer.rawPixel fb.format.bitsPixel pixel = some raw) (before : pos.x < fb.region.width)
    (near : fb.region.width - pos.x < 18446744073709551616) :
    fb.setPixel pos pixel = some {fb with pixels := setPixel pos raw fb.pixels} := by
  have one : min 1 ((fb.region.width - pos.x) % 18446744073709551616).toNat = 1 := by omega
  have here (p : Point) : (p.y = pos.y ∧ pos.x ≤ p.x ∧ p.x < pos.x + (1 : Nat)) ↔ p = pos := by
    obtain ⟨x,y⟩ := p
    obtain ⟨px,py⟩ := pos
    simp only [Point.mk.injEq]
    omega
  rw [FrameBuffer.setPixel,FrameBuffer.setPixelRow,keeps]
  simp only [bind,Option.bind,one,here]
  rfl

theorem memPoints {reg : Region} {p : Point} : p ∈ reg.points ↔ reg.Has p := by
  obtain ⟨x,y⟩ := p
  simp only [Region.points,List.mem_flatMap,List.mem_map,List.mem_range,Point.mk.injEq,Region.Has]
  constructor
  · rintro ⟨py,below,px,before,rfl,rfl⟩
    omega
  · rintro ⟨left,right,top,bottom⟩
    exact ⟨(y - reg.y).toNat,by omega,(x - reg.x).toNat,by omega,by omega,by omega⟩

/- Points that are set one after another. -/
def among (points : List Point) : Set Point := {p | p ∈ points}

theorem setPixelPaint {source s : Screen} {p : Point} {pixel : UInt32} (same : source p = pixel) :
    setPixel p pixel s = paint source {p} s := by
  funext q
  by_cases here : q = p
  · subst here
    rw [setPixel,if_pos rfl,paintInside (Set.mem_singleton q),same]
  · rw [setPixel,if_neg here,paintOutside (show q ∉ ({p} : Set Point) from here)]

theorem amongCons (source s : Screen) (p : Point) (rest : List Point) :
    paint source (among rest) (paint source {p} s) = paint source (among (p :: rest)) s := by
  rw [paintPaint]
  congr 1
  ext q
  simp [among]

@[simp] theorem amongNil (source s : Screen) : paint source (among []) s = s := by
  have none : among [] = ∅ := by
    ext q
    simp [among]
  rw [none,paintNothing]

theorem amongAppend (source s : Screen) (points others : List Point) :
    paint source (among others) (paint source (among points) s) = paint source (among (points ++ others)) s := by
  rw [paintPaint]
  congr 1
  ext q
  simp [among]

theorem lengthPoints (reg : Region) : reg.points.length = reg.area := by
  simp [Region.points,Region.area,List.length_flatMap,Nat.mul_comm]

theorem amongPoints (reg : Region) : among reg.points = reg.cells := Set.ext fun _ => memPoints

section
variable {fb : FrameBuffer} {cpu : Machine} {reg : Region}

theorem allOfPixelUniform {pix : UInt32} (all : fb.allOfPixel pix reg = true) {p : Point} (has : reg.Has p) :
    fb.pixel p = pix := by
  have every := (Bool.and_eq_true_iff.mp all).2
  exact (beq_iff_eq.mp (List.all_eq_true.mp every p (memPoints.mpr has))).symm

theorem regionMapKeeps (weight : Nat) (fb : FrameBuffer) (reg : Region) :
    Keeps (FrameBuffer.regionMap weight fb reg) fun pix => ∃ p, reg.Has p ∧ fb.pixel p = pix := by
  refine keepsCongr (fun pix => ?_) (keepsAll reg.points keepsNothing)
  simp only [memPoints,false_or]

/- The blocks of a region between them have its points. -/
theorem tilesHas {sz : Size} {blocks : List Region} (tiles : Tiles reg sz blocks) {p : Point} :
    (∃ block ∈ blocks, block.Has p) ↔ reg.Has p :=
  ⟨fun ⟨block,listed,has⟩ => withinHas (tiles.within block listed) has,tiles.covers p⟩

theorem blocksKeep (weight : Nat) (blocks : List Region) {map : List (UInt32 × Nat)} {seen : UInt32 → Prop}
    (h : Keeps map seen) :
    Keeps (blocks.foldl (fun map block => (cpu.hash.order (FrameBuffer.regionMap weight fb block)).foldl
      (fun map entry => tally entry.2 entry.1 map) map) map)
      fun pix => seen pix ∨ ∃ block ∈ blocks, ∃ p, block.Has p ∧ fb.pixel p = pix := by
  induction blocks generalizing map seen with
  | nil => exact keepsCongr (by simp) h
  | cons block rest ih =>
    have counted := keepsOrder cpu.hash (regionMapKeeps weight fb block)
    refine keepsCongr (fun pix => ?_) (ih (keepsAll (cpu.hash.order (FrameBuffer.regionMap weight fb block)) h))
    have listed : (∃ entry ∈ cpu.hash.order (FrameBuffer.regionMap weight fb block), entry.1 = pix) ↔
        ∃ p, block.Has p ∧ fb.pixel p = pix := by
      rw [← counted.listed pix]
      simp [keys]
    rw [listed,List.exists_mem_cons_iff,or_assoc]

theorem largeArea (large : isLarge reg = true) : 1024 < reg.width * reg.height := by
  have wraps : wrapInt (reg.width * reg.height) ≤ (reg.width * reg.height : Nat) := by
    have low : (0 : Int) ≤ (reg.width * reg.height : Nat) := Int.natCast_nonneg _
    push_cast at low ⊢
    unfold wrapInt
    rw [Int.bmod_def]
    split <;> omega
  have more : 1024 < wrapInt (reg.width * reg.height) := of_decide_eq_true large
  omega

/- A region that is split between threads has something in each quarter. -/
theorem quarterFilled {cpu : Machine} (splits : cpu.splits reg = true)
    (tall : 1024 < reg.width * reg.height → 4 ≤ reg.height) :
    0 < (FrameBuffer.quarter reg).width ∧ 0 < (FrameBuffer.quarter reg).height := by
  have large := largeArea (Bool.and_eq_true_iff.mp splits).2
  have wide : 0 < reg.width := Nat.pos_of_ne_zero fun none => by simp [none] at large
  exact ⟨wide,Nat.div_pos (tall large) (by decide)⟩

theorem pixelMapKeeps (weight : Nat) (fb : FrameBuffer) (cpu : Machine) (fits : reg.Fits)
    (tall : 1024 < reg.width * reg.height → 4 ≤ reg.height) :
    ∃ map, FrameBuffer.pixelMap weight fb cpu reg = some map ∧
      Keeps map fun pix => ∃ p, reg.Has p ∧ fb.pixel p = pix := by
  unfold FrameBuffer.pixelMap
  by_cases splits : cpu.splits reg = true
  · obtain ⟨wide,high⟩ := quarterFilled splits tall
    obtain ⟨blocks,divides,tiles⟩ := divideTiles fits wide high
    refine ⟨_,by rw [if_pos splits,divides]; rfl,
      keepsCongr (fun pix => ?_) (blocksKeep weight blocks keepsNothing)⟩
    rw [false_or]
    constructor
    · rintro ⟨block,listed,p,has,same⟩
      exact ⟨p,withinHas (tiles.within block listed) has,same⟩
    · rintro ⟨p,has,same⟩
      obtain ⟨block,listed,inside⟩ := tiles.covers p has
      exact ⟨block,listed,p,inside,same⟩
  · exact ⟨_,if_neg splits,regionMapKeeps weight fb reg⟩

theorem weightsOf (fb : FrameBuffer) (cpu : Machine) (fits : reg.Fits)
    (tall : 1024 < reg.width * reg.height → 4 ≤ reg.height) :
    ∃ map, fb.pixelMapWeight cpu reg = some map ∧
      Keeps map fun pix => ∃ p, reg.Has p ∧ fb.pixel p = pix := pixelMapKeeps 1 fb cpu fits tall

/- Each pixel of the region once, numbered from nought. -/
theorem paletteOf (fb : FrameBuffer) (cpu : Machine) (fits : reg.Fits)
    (tall : 1024 < reg.width * reg.height → 4 ≤ reg.height) :
    ∃ colors : List UInt32, fb.pixelMapPalette cpu reg = some colors.zipIdx ∧ colors.Nodup ∧
      ∀ pix, pix ∈ colors ↔ ∃ p, reg.Has p ∧ fb.pixel p = pix := by
  obtain ⟨map,maps,keeps⟩ := pixelMapKeeps 0 fb cpu fits tall
  have ordered := keepsOrder cpu.hash keeps
  exact ⟨keys (cpu.hash.order map),by rw [FrameBuffer.pixelMapPalette,maps]; rfl,ordered.distinct,ordered.listed⟩

/- One entry in the map of weights: every point has the colour of the first. -/
theorem keepsOne {map : List (UInt32 × Nat)} (keeps : Keeps map fun pix => ∃ p, reg.Has p ∧ fb.pixel p = pix)
    (one : ¬1 < map.length) (filled : 0 < reg.width ∧ 0 < reg.height) {p : Point} (has : reg.Has p) :
    fb.pixel p = fb.pixel reg.topLeft := by
  have here := (keeps.listed (fb.pixel p)).mpr ⟨p,has,rfl⟩
  have first := (keeps.listed (fb.pixel reg.topLeft)).mpr ⟨_,topLeftHas filled,rfl⟩
  match map with
  | [] => exact absurd here List.not_mem_nil
  | [entry] => exact (List.mem_singleton.mp here).trans (List.mem_singleton.mp first).symm
  | _ :: _ :: _ => exact absurd (by simp) one

theorem keepsSome {map : List (UInt32 × Nat)} (keeps : Keeps map fun pix => ∃ p, reg.Has p ∧ fb.pixel p = pix)
    (filled : 0 < reg.width ∧ 0 < reg.height) : map ≠ [] := by
  rintro rfl
  exact List.not_mem_nil ((keeps.listed (fb.pixel reg.topLeft)).mpr ⟨_,topLeftHas filled,rfl⟩)

/- The heaviest pixel is one of the region. -/
theorem maxWeightThere {map : List (UInt32 × Nat)} (cpu : Machine)
    (keeps : Keeps map fun pix => ∃ p, reg.Has p ∧ fb.pixel p = pix) (some : map ≠ []) :
    ∃ p, reg.Has p ∧ fb.pixel p = maxWeightPixel cpu map := by
  have ordered := keepsOrder cpu.hash keeps
  have length := (cpu.hash.perm map).length_eq
  unfold maxWeightPixel
  cases largest : maxEntry (cpu.hash.order map) with
  | none =>
    cases entries : cpu.hash.order map with
    | nil =>
      rw [entries] at length
      exact absurd (List.length_eq_zero_iff.mp length.symm) some
    | cons entry rest =>
      rw [entries] at largest
      cases largest
  | some entry => exact (ordered.listed entry.1).mp (List.mem_map_of_mem (maxEntryListed largest))

/- More than one entry: some point differs from any one colour. -/
theorem keepsTwo {map : List (UInt32 × Nat)} (keeps : Keeps map fun pix => ∃ p, reg.Has p ∧ fb.pixel p = pix)
    (many : 1 < map.length) (back : UInt32) : ∃ p, reg.Has p ∧ fb.pixel p ≠ back := by
  match map with
  | [] => exact absurd many (by simp)
  | [_] => exact absurd many (by simp)
  | one :: two :: _ =>
    have apart : one.1 ≠ two.1 := by
      have distinct := keeps.distinct
      simp only [keys,List.map_cons,List.nodup_cons,List.mem_cons,not_or] at distinct
      exact distinct.1.1
    obtain ⟨p,has,first⟩ := (keeps.listed one.1).mp (by simp [keys])
    obtain ⟨q,hasQ,second⟩ := (keeps.listed two.1).mp (by simp [keys])
    by_cases here : one.1 = back
    · exact ⟨q,hasQ,fun same => apart (here.trans (same.symm.trans second))⟩
    · exact ⟨p,has,fun same => here (first.symm.trans same)⟩

end

/-! A frame whose 32-bit format both ends use, with one byte order. -/

structure SharedFrame where
  fb : FrameBuffer
  bits : fb.format.bitsPixel = 32
  fits : fb.region.Fits
  be : Bool
  displaySize : Size

namespace SharedFrame
variable (f : SharedFrame)

def stream : EncoderStream := ⟨f.fb.format,f.fb.format,f.be,f.be,f.displaySize⟩

theorem fourBytes : f.fb.format.bytePerPixel = 4 := by
  rw [PixelFormat.bytePerPixel,f.bits]

theorem sendsPixel (pixel : UInt32) : f.stream.sendPixel pixel = some (wordBytes f.be pixel) := by
  rw [EncoderStream.sendPixel]
  simp only [stream,convertSelf,f.fourBytes]
  rfl

theorem readsPixel (pixel : UInt32) :
    Reads (recvPixel f.be f.fb.format) (wordBytes f.be pixel) pixel := by
  have read : Reads (takeBytes 4 >>= fun bytes => pure (ofWordBytes f.be bytes)) (wordBytes f.be pixel)
      (ofWordBytes f.be (wordBytes f.be pixel)) := readsWord (lengthWordBytes _ _)
  rw [ofWordBytesOf] at read
  rw [recvPixel,f.fourBytes]
  exact read

end SharedFrame

/- The blocks of a region, painted one after another, paint the region. -/
theorem tilesCovered {reg : Region} {sz : Size} {blocks : List Region} (tiles : Tiles reg sz blocks) :
    covered Region.cells blocks = reg.cells :=
  Set.ext fun _ => tilesHas tiles

theorem fillPixelPaint {source s : Screen} {reg : Region} {pixel : UInt32}
    (uniform : ∀ p, reg.Has p → source p = pixel) : fillPixel reg pixel s = paint source reg.cells s := by
  funext p
  by_cases has : reg.Has p
  · rw [fillPixel,if_pos has,paintInside (show p ∈ reg.cells from has),uniform p has]
  · rw [fillPixel,if_neg has,paintOutside (show p ∉ reg.cells from has)]

/- A tile of the frame, as its job sees it and as it lies on the screen. -/
structure Tile (fb : FrameBuffer) (sz : Size) (tile : Region) : Prop where
  within : tile.Within fb.region
  filled : 0 < tile.width ∧ 0 < tile.height
  narrow : tile.width ≤ sz.width ∧ tile.height ≤ sz.height

def jobOf (fb : FrameBuffer) (tile : Region) : Region := tile.sub fb.region.topLeft

section
variable {fb : FrameBuffer} {sz : Size} {tile : Region}

theorem jobMoved (fits : fb.region.Fits) (t : Tile fb sz tile) :
    jobOf fb tile = tile.moved (-fb.region.x) (-fb.region.y) := subMoved t.within fits t.filled

theorem jobFits (fits : fb.region.Fits) (t : Tile fb sz tile) : (jobOf fb tile).Fits := by
  rw [jobMoved fits t]
  exact subFits t.within fits

theorem jobFilled (t : Tile fb sz tile) :
    0 < (jobOf fb tile).width ∧ 0 < (jobOf fb tile).height := t.filled

/- A part of the job, where it lies on the screen. -/
theorem partPlaced (fits : fb.region.Fits) (t : Tile fb sz tile) {part : Region}
    (within : part.Within (jobOf fb tile)) :
    (part.moved fb.region.x fb.region.y).Within tile := by
  have moved := movedWithin within fb.region.x fb.region.y
  rwa [jobMoved fits t,movedBack] at moved

/- The tile shows what the frame has in it. -/
theorem sourceJob (fits : fb.region.Fits) (t : Tile fb sz tile) {p : Point} (has : tile.Has p) :
    (jobOf fb tile).Has ⟨p.x - fb.region.x,p.y - fb.region.y⟩ := by
  rw [jobMoved fits t]
  apply movedHas.mp
  rwa [movedBack]

theorem sendTilesRects {enc : Encoding} {sendRegion : Region → Option Bytes} (fits : fb.region.Fits)
    (wide : 0 < sz.width) (high : 0 < sz.height)
    (sends : ∀ tile, Tile fb sz tile → ∃ data, sendRegion (jobOf fb tile) = some data) :
    ∃ rects, fb.sendTiles enc sz sendRegion = some rects ∧
      fb.region.divideBlocks sz = some (rects.map Rect.region) ∧
      Tiles fb.region sz (rects.map Rect.region) ∧
      ∀ rect ∈ rects, rect.type = enc.code ∧ Tile fb sz rect.region ∧
        sendRegion (jobOf fb rect.region) = some rect.data := by
  obtain ⟨blocks,divides,tiles⟩ := divideTiles fits wide high
  have each (blocks : List Region) (listed : ∀ block ∈ blocks, Tile fb sz block) :
      ∃ rects, (blocks.mapM fun reg => do
          let job := reg.sub fb.region.topLeft
          let data ← sendRegion job
          some (⟨enc.code,job.add fb.region.topLeft,data⟩ : Rect)) = some rects ∧
        rects.map Rect.region = blocks ∧ ∀ rect ∈ rects, rect.type = enc.code ∧
          Tile fb sz rect.region ∧ sendRegion (jobOf fb rect.region) = some rect.data := by
    induction blocks with
    | nil => exact ⟨[],rfl,rfl,by simp⟩
    | cons block rest ih =>
      obtain ⟨first,later⟩ := List.forall_mem_cons.mp listed
      obtain ⟨data,sent⟩ := sends block first
      obtain ⟨rects,returns,regions,good⟩ := ih later
      refine ⟨⟨enc.code,block,data⟩ :: rects,?_,by rw [List.map_cons,regions],
        List.forall_mem_cons.mpr ⟨⟨rfl,first,sent⟩,good⟩⟩
      have head : sendRegion (block.sub fb.region.topLeft) = some data := sent
      rw [List.mapM_cons,returns]
      simp only [head,subAdd first.within fits first.filled]
      rfl
  obtain ⟨rects,returns,regions,good⟩ := each blocks fun block listed =>
    ⟨tiles.within block listed,tiles.filled block listed,tiles.narrow block listed⟩
  refine ⟨rects,?_,regions ▸ divides,regions ▸ tiles,good⟩
  rw [FrameBuffer.sendTiles,divides]
  exact returns

/- A job with sides of at most 128 is not cut into rows of none. -/
theorem jobTall (t : Tile fb sz tile) (side : sz.width ≤ 128)
    (large : 1024 < (jobOf fb tile).width * (jobOf fb tile).height) : 4 ≤ (jobOf fb tile).height := by
  by_contra low
  have area : (jobOf fb tile).width * (jobOf fb tile).height ≤ 128 * 3 :=
    Nat.mul_le_mul (t.narrow.1.trans side) (by omega)
  omega

/- Decoders that paint each tile, put together, paint the frame. -/
theorem readsTiles {σ : Type} {decode : Region → σ → Reader σ} {enc : Encoding} {rects : List Rect}
    {sendRegion : Region → Option Bytes} (fits : fb.region.Fits)
    (tiles : Tiles fb.region sz (rects.map Rect.region))
    (sent : ∀ rect ∈ rects, rect.type = enc.code ∧ Tile fb sz rect.region ∧
      sendRegion (jobOf fb rect.region) = some rect.data) (view : σ → Screen)
    (each : ∀ rect ∈ rects, ∀ s, ∃ s', Reads (decode rect.region s) rect.data s' ∧
      view s' = paint fb.source rect.region.cells (view s)) (s : σ) :
    ∃ s', Reads (recvRects (fun _ => decode) rects.length s) (rects.flatMap Rect.bytes) s' ∧
      view s' = paint fb.source fb.region.cells (view s) := by
  let Rest (rest : List Rect) (now : σ) : Prop :=
    paint fb.source (covered Region.cells (rest.map Rect.region)) (view now) =
      paint fb.source fb.region.cells (view s)
  have start : Rest rects s := by
    simp only [Rest,tilesCovered tiles]
  have next (rect) (listed : rect ∈ rects) (rest : List Rect) (now : σ) (before : Rest (rect :: rest) now) :
      ∃ s', Reads (decode rect.region now) rect.data s' ∧ Rest rest s' := by
    obtain ⟨s',reads,paints⟩ := each rect listed now
    refine ⟨s',reads,?_⟩
    simp only [Rest] at before ⊢
    rw [paints,paintCovered]
    exact before
  obtain ⟨last,reads,done⟩ : ∃ s', Reads (recvRects (fun _ => decode) rects.length s)
      (rects.flatMap Rect.bytes) s' ∧ Rest [] s' :=
    readsRects Rest (fun rect listed => (sent rect listed).1)
      (fun rect listed => storedFits (withinFits (sent rect listed).2.1.within fits)
        (sent rect listed).2.1.filled) next start
  refine ⟨last,reads,?_⟩
  simpa [Rest] using done

/-! Raw pixels, row by row. -/

def rawBytes (fb : FrameBuffer) (be : Bool) (reg : Region) : Bytes :=
  reg.points.flatMap fun p => wordBytes be (fb.pixel p)

/- Where the bytes of a point lie, when each point of a region has as many. -/
theorem pointBlock {reg : Region} {g : Point → Bytes} {n : Nat} (each : ∀ p, (g p).length = n) {px py : Nat}
    (col : px < reg.width) (row : py < reg.height) :
    ((reg.points.flatMap g).drop (py * (reg.width * n) + px * n)).take n = g ⟨reg.x + px,reg.y + py⟩ := by
  have rows : reg.points.flatMap g = (List.range reg.height).flatMap fun (py : Nat) =>
      (List.range reg.width).flatMap fun (px : Nat) => g ⟨reg.x + px,reg.y + py⟩ := by
    simp [Region.points,List.flatMap_assoc,List.flatMap_map]
  have block := blockInRows (List.range reg.height) (List.range reg.width)
    (g := fun (py px : Nat) => g ⟨reg.x + px,reg.y + py⟩) (fun _ _ _ _ => each _) (by simpa using row)
    (by simpa using col)
  simp only [List.length_range,List.getElem_range] at block
  rw [rows,block]

theorem rawAt (be : Bool) (reg : Region) {px py : Nat} (col : px < reg.width) (row : py < reg.height) :
    ((rawBytes fb be reg).drop (py * (reg.width * 4) + px * 4)).take 4 =
      wordBytes be (fb.pixel ⟨reg.x + px,reg.y + py⟩) :=
  pointBlock (fun _ => lengthWordBytes be _) col row

theorem sendsRaw (f : SharedFrame) (points : List Point) :
    points.mapM (fun p => f.stream.sendPixel (f.fb.pixel p)) =
      some (points.map fun p => wordBytes f.be (f.fb.pixel p)) :=
  mapMSome fun p _ => f.sendsPixel (f.fb.pixel p)

theorem lengthRawBytes (be : Bool) (reg : Region) :
    (rawBytes fb be reg).length = reg.width * 4 * reg.height := by
  rw [rawBytes,lengthBlocks reg.points fun _ _ => lengthWordBytes be _]
  simp [Region.points,List.length_flatMap]
  ring

theorem rawPaints (fits : fb.region.Fits) (t : Tile fb sz tile) (be : Bool) (s : Screen) :
    updateRawPixels be tile (rawBytes fb be (jobOf fb tile)) (tile.width * 4) s =
      paint fb.source tile.cells s := by
  funext p
  by_cases has : tile.Has p
  · rw [updateRawPixels,if_pos has,paintInside (show p ∈ tile.cells from has)]
    have job := jobMoved fits t
    obtain ⟨left,right,top,bottom⟩ := has
    have col : (p.x - tile.x).toNat < (jobOf fb tile).width := by
      rw [job]
      simp only [Region.moved]
      omega
    have row : (p.y - tile.y).toNat < (jobOf fb tile).height := by
      rw [job]
      simp only [Region.moved]
      omega
    have word := @rawAt fb be (jobOf fb tile) _ _ col row
    have width : (jobOf fb tile).width = tile.width := rfl
    rw [width] at word
    rw [word,ofWordBytesOf,job]
    simp only [Region.moved,FrameBuffer.pixel,FrameBuffer.source]
    congr 2 <;> omega
  · rw [updateRawPixels,if_neg has,paintOutside (show p ∉ tile.cells from has)]

end
end Ltsm.FrameBuffers
