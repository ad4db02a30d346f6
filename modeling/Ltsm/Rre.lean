import Ltsm.SubRects

/-! RRE and CoRRE: a background and rectangles over it, with coordinates of two bytes
or of one. -/
namespace Ltsm.Rre
open Library Regions PixelFormats PixelStreams UpdateMessages FrameBuffers SubRects

/- The coordinates of a sub-rectangle relative to its region, and its size. -/
def subRectFields (reg : Region) (region : Region) : List Int :=
  [region.x - reg.x,region.y - reg.y,region.width,region.height]

def toUInt8 (value : Int) : Nat := (value % 256).toNat

def sendField (corre : Bool) (value : Int) : Bytes :=
  if corre then sendInt8 (toUInt8 value) else sendIntBE16 (toUInt16 value)

def sendRect (st : EncoderStream) (corre : Bool) (reg : Region) (good : RegionPixel) : Option Bytes := do
  let pixel ← st.sendPixel good.2
  some (pixel ++ (subRectFields reg good.1).flatMap (sendField corre))

def sendRects (st : EncoderStream) (corre : Bool) (reg : Region) (back : UInt32) (goods : List RegionPixel) :
    Option Bytes := do
  let pixel ← st.sendPixel back
  let rects ← goods.mapM (sendRect st corre reg)
  some (sendIntBE32 goods.length ++ (pixel ++ rects.flatten))

/- A region of one colour still has a sub-rectangle, of one point. -/
def sendSolid (st : EncoderStream) (corre : Bool) (back : UInt32) : Option Bytes := do
  let pixel ← st.sendPixel back
  some (sendIntBE32 1 ++ (pixel ++ (pixel ++ ([0,0,1,1] : List Int).flatMap (sendField corre))))

def sendRegion (st : EncoderStream) (corre : Bool) (cpu : Machine) (fb : FrameBuffer) (reg : Region) :
    Option Bytes := do
  let map ← fb.pixelMapWeight cpu reg
  if map.isEmpty then none
  else if 1 < map.length then
    let back := maxWeightPixel cpu map
    let goods ← rreProcessing reg fb back
    sendRects st corre reg back goods
  else sendSolid st corre (fb.pixel reg.topLeft)

def blockSize (corre : Bool) : Size := if corre then ⟨64,64⟩ else ⟨128,128⟩

def encoding (corre : Bool) : Encoding := if corre then .corre else .rre

def sendFrameBuffer (st : EncoderStream) (corre : Bool) (cpu : Machine) (fb : FrameBuffer) :
    Option (List Rect) :=
  fb.sendTiles (encoding corre) (blockSize corre) (sendRegion st corre cpu fb)

def recvField (corre : Bool) : Reader Nat := if corre then recvInt8 else recvIntBE16

section
variable (corre be : Bool) (clientPf : PixelFormat) (reg : Region)

def recvSubRect (s : Screen) : Reader Screen :=
  recvPixel be clientPf >>= fun pixel => recvField corre >>= fun x => recvField corre >>= fun y =>
    recvField corre >>= fun width => recvField corre >>= fun height =>
      let dst := subRegion reg x y width height
      if outOfRange reg dst then fail else pure (fillPixel dst pixel s)

def recvSubRects : Nat → Screen → Reader Screen
  | 0, s => pure s
  | count + 1, s => recvSubRect corre be clientPf reg s >>= recvSubRects count

def decodeRRE (s : Screen) : Reader Screen :=
  recvIntBE32 >>= fun subRects => recvPixel be clientPf >>= fun bgColor =>
    recvSubRects corre be clientPf reg subRects (fillPixel reg bgColor s)

end

/- One more than the largest number a field can carry. -/
def fieldLimit (corre : Bool) : Int := if corre then 256 else 65536

theorem readsField (corre : Bool) {value : Int} (low : 0 ≤ value) (high : value < fieldLimit corre) :
    Reads (recvField corre) (sendField corre value) value.toNat := by
  cases corre
  · have small : toUInt16 value % 65536 = value.toNat := by
      simp only [fieldLimit,Bool.false_eq_true,if_false] at high
      unfold toUInt16
      omega
    have read := readsIntBE16 (toUInt16 value)
    rwa [small] at read
  · have small : toUInt8 value % 256 = value.toNat := by
      simp only [fieldLimit,if_true] at high
      unfold toUInt8
      omega
    have read := readsInt8 (toUInt8 value)
    rwa [small] at read

section
variable {corre : Bool} {f : SharedFrame} {sz : Size} {tile : Region}

theorem sendsRect (good : RegionPixel) : sendRect f.stream corre (jobOf f.fb tile) good =
    some (wordBytes f.be good.2 ++ (subRectFields (jobOf f.fb tile) good.1).flatMap (sendField corre)) := by
  rw [sendRect,f.sendsPixel]
  rfl

theorem readsSubRect (t : Tile f.fb sz tile) {good : RegionPixel} (inside : Good f.fb (jobOf f.fb tile) good)
    (small : ∀ value ∈ subRectFields (jobOf f.fb tile) good.1, 0 ≤ value ∧ value < fieldLimit corre)
    (s : Screen) :
    Reads (recvSubRect corre f.be f.fb.format tile s)
      (wordBytes f.be good.2 ++ (subRectFields (jobOf f.fb tile) good.1).flatMap (sendField corre))
      (paint f.fb.source (good.1.moved f.fb.region.x f.fb.region.y).cells s) := by
  obtain ⟨dst,range⟩ := partRead f.fits t inside.within inside.filled
  simp only [subRectFields,List.mem_cons,List.not_mem_nil,or_false,forall_eq_or_imp,forall_eq] at small
  obtain ⟨smallX,smallY,smallWidth,smallHeight⟩ := small
  have uniform (p : Point) (has : (good.1.moved f.fb.region.x f.fb.region.y).Has p) :
      f.fb.source p = good.2 := inside.uniform _ (movedHas.mp has)
  rw [← fillPixelPaint uniform]
  refine readsBind (f.readsPixel good.2) (readsBind (readsField corre smallX.1 smallX.2)
    (readsBind (readsField corre smallY.1 smallY.2) (readsBind (readsField corre smallWidth.1 smallWidth.2)
      (readsBind (readsField corre smallHeight.1 smallHeight.2) ?_))))
  simp only [Int.toNat_natCast,dst,range]
  exact readsPure _

/- Everything that is sent of a rectangle inside a tile of at most 128 points a side. -/
theorem fieldsSmall (t : Tile f.fb (blockSize corre) tile) {good : RegionPixel}
    (inside : Good f.fb (jobOf f.fb tile) good) :
    ∀ value ∈ subRectFields (jobOf f.fb tile) good.1, 0 ≤ value ∧ value < 256 := by
  obtain ⟨left,top,right,bottom⟩ := inside.within
  have filled := inside.filled
  have wide : (jobOf f.fb tile).width ≤ 128 := by
    have narrow : tile.width ≤ (blockSize corre).width := t.narrow.1
    have side : (blockSize corre).width ≤ 128 := by cases corre <;> decide
    exact narrow.trans side
  have high : (jobOf f.fb tile).height ≤ 128 := by
    have narrow : tile.height ≤ (blockSize corre).height := t.narrow.2
    have side : (blockSize corre).height ≤ 128 := by cases corre <;> decide
    exact narrow.trans side
  simp only [subRectFields,List.mem_cons,List.not_mem_nil,or_false,forall_eq_or_imp,forall_eq]
  omega

def rectBytes (f : SharedFrame) (corre : Bool) (job : Region) (good : RegionPixel) : Bytes :=
  wordBytes f.be good.2 ++ (subRectFields job good.1).flatMap (sendField corre)

theorem sendsRects (back : UInt32) (goods : List RegionPixel) :
    sendRects f.stream corre (jobOf f.fb tile) back goods = some (sendIntBE32 goods.length ++
      (wordBytes f.be back ++ goods.flatMap (rectBytes f corre (jobOf f.fb tile)))) := by
  have all : goods.mapM (sendRect f.stream corre (jobOf f.fb tile)) =
      some (goods.map (rectBytes f corre (jobOf f.fb tile))) := mapMSome fun good _ => sendsRect good
  rw [sendRects,f.sendsPixel,all]
  simp [List.flatMap_def]

theorem readsSubRects (t : Tile f.fb (blockSize corre) tile) {goods : List RegionPixel}
    (inside : ∀ good ∈ goods, Good f.fb (jobOf f.fb tile) good) (s : Screen) :
    Reads (recvSubRects corre f.be f.fb.format tile goods.length s)
      (goods.flatMap (rectBytes f corre (jobOf f.fb tile)))
      (paint f.fb.source (covered (partCells f.fb) goods) s) := by
  induction goods generalizing s with
  | nil =>
    rw [coveredNil,paintNothing]
    exact readsPure s
  | cons good rest ih =>
    obtain ⟨first,later⟩ := List.forall_mem_cons.mp inside
    have limit : 256 ≤ fieldLimit corre := by cases corre <;> decide
    have small (value) (listed : value ∈ subRectFields (jobOf f.fb tile) good.1) :
        0 ≤ value ∧ value < fieldLimit corre :=
      (fieldsSmall t first value listed).imp id fun less => less.trans_le limit
    rw [← paintCovered]
    exact readsBind (readsSubRect t first small s) (ih later _)

theorem readsRectangles (t : Tile f.fb (blockSize corre) tile) {back : UInt32} {goods : List RegionPixel}
    (inside : ∀ good ∈ goods, Good f.fb (jobOf f.fb tile) good)
    (covers : ∀ p, (jobOf f.fb tile).Has p → f.fb.pixel p ≠ back → ∃ good ∈ goods, good.1.Has p)
    (few : goods.length ≤ (jobOf f.fb tile).area) (s : Screen) :
    Reads (decodeRRE corre f.be f.fb.format tile s) (sendIntBE32 goods.length ++
      (wordBytes f.be back ++ goods.flatMap (rectBytes f corre (jobOf f.fb tile))))
      (paint f.fb.source tile.cells s) := by
  have side : (blockSize corre).width ≤ 128 ∧ (blockSize corre).height ≤ 128 := by cases corre <;> decide
  have area : (jobOf f.fb tile).area ≤ 128 * 128 :=
    Nat.mul_le_mul (t.narrow.1.trans side.1) (t.narrow.2.trans side.2)
  rw [← paintsTile f.fits t inside covers s]
  exact readsBind (readsSmall32 (by omega)) (readsBind (f.readsPixel back) (readsSubRects t inside _))

/- The sub-rectangle of a region of one colour is its first point. -/
theorem sendsSolid (back : UInt32) : sendSolid f.stream corre back = some (sendIntBE32 1 ++
    (wordBytes f.be back ++ ([(⟨(jobOf f.fb tile).x,(jobOf f.fb tile).y,1,1⟩,back)] : List RegionPixel).flatMap
      (rectBytes f corre (jobOf f.fb tile)))) := by
  rw [sendSolid,f.sendsPixel]
  simp [rectBytes,subRectFields]

/- What is sent for a tile, and that the tile comes out of it. -/
theorem sendRegionReads (cpu : Machine) (t : Tile f.fb (blockSize corre) tile) :
    ∃ data, sendRegion f.stream corre cpu f.fb (jobOf f.fb tile) = some data ∧
      ∀ s, Reads (decodeRRE corre f.be f.fb.format tile s) data (paint f.fb.source tile.cells s) := by
  have fits := jobFits f.fits t
  have filled := jobFilled t
  have side : (blockSize corre).width ≤ 128 := by cases corre <;> decide
  obtain ⟨map,weighs,keeps⟩ := weightsOf f.fb cpu fits (jobTall t side)
  have nonempty := keepsSome keeps filled
  by_cases many : 1 < map.length
  · obtain ⟨goods,finds,found⟩ := rreProcessingFinds fits filled f.fb (maxWeightPixel cpu map)
    refine ⟨_,?_,readsRectangles t found.good found.covers found.few⟩
    rw [sendRegion,weighs,← sendsRects]
    simp [nonempty,many,finds]
  · have uniform (p) (has : (jobOf f.fb tile).Has p) := keepsOne keeps many filled has
    let first : RegionPixel := (⟨(jobOf f.fb tile).x,(jobOf f.fb tile).y,1,1⟩,f.fb.pixel (jobOf f.fb tile).topLeft)
    have inside : ∀ good ∈ [first], Good f.fb (jobOf f.fb tile) good := by
      rw [List.forall_mem_singleton]
      refine ⟨?_,by simp [first],fun p has => uniform p ?_⟩
      · constructor <;> simp only [first] <;> omega
      · simp only [Region.Has,first] at has ⊢
        omega
    have covers (p) (has : (jobOf f.fb tile).Has p)
        (differs : f.fb.pixel p ≠ f.fb.pixel (jobOf f.fb tile).topLeft) : ∃ good ∈ [first], good.1.Has p :=
      absurd (uniform p has) differs
    refine ⟨_,?_,readsRectangles t inside covers (filledArea filled)⟩
    rw [sendRegion,weighs,List.length_singleton,← sendsSolid]
    simp [nonempty,many]

end

/- Every number sent of a sub-rectangle is what the client reads of it. -/
def FieldsFit (limit : Int) (fb : FrameBuffer) (reg : Region) : Prop :=
  ∀ back goods, rreProcessing reg fb back = some goods →
    ∀ good ∈ goods, ∀ value ∈ subRectFields reg good.1, 0 ≤ value ∧ value < limit

end Ltsm.Rre
