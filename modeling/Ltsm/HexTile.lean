import Ltsm.SubRects

/-! HexTile: tiles of sixteen points a side, each raw, of one colour, or a background
with sub-rectangles. The decoder keeps a background and a foreground from tile to
tile; the encoder keeps nothing. -/
namespace Ltsm.HexTile
open Library Regions PixelFormats PixelStreams UpdateMessages FrameBuffers SubRects

def RAW : Nat := 1
def BACKGROUND : Nat := 2
def FOREGROUND : Nat := 4
def SUBRECTS : Nat := 8
def COLOURED : Nat := 16

/- `0xFF & (high << 4 | low)` on the 32-bit integers of the source. -/
def nibbles (high low : Int) : Nat :=
  ((BitVec.ofInt 32 high <<< 4 ||| BitVec.ofInt 32 low) &&& 0xFF).toNat

def placeBytes (reg region : Region) : Bytes :=
  sendInt8 (nibbles (region.x - reg.x) (region.y - reg.y)) ++
    sendInt8 (nibbles (region.width - 1) (region.height - 1))

def sendRegionRaw (st : EncoderStream) (fb : FrameBuffer) (reg : Region) : Option Bytes := do
  let pixels ← reg.points.mapM fun p => st.sendPixel (fb.pixel p)
  some (sendInt8 RAW ++ pixels.flatten)

def sendColoredRect (st : EncoderStream) (reg : Region) (good : RegionPixel) : Option Bytes := do
  let pixel ← st.sendPixel good.2
  some (pixel ++ placeBytes reg good.1)

def sendRegionColored (st : EncoderStream) (reg : Region) (back : UInt32) (goods : List RegionPixel) :
    Option Bytes := do
  let pixel ← st.sendPixel back
  let rects ← goods.mapM (sendColoredRect st reg)
  some (sendInt8 (BACKGROUND ||| COLOURED ||| SUBRECTS) ++
    (pixel ++ (sendInt8 goods.length ++ rects.flatten)))

def sendRegionForeground (st : EncoderStream) (reg : Region) (back fore : UInt32) (goods : List RegionPixel) :
    Option Bytes := do
  let pixel ← st.sendPixel back
  let foreground ← st.sendPixel fore
  some (sendInt8 (BACKGROUND ||| FOREGROUND ||| SUBRECTS) ++ (pixel ++ (foreground ++
    (sendInt8 goods.length ++ goods.flatMap fun good => placeBytes reg good.1))))

/- The sub-rectangles are sent if that is not longer than the raw pixels. -/
def sendRegionRects (st : EncoderStream) (fb : FrameBuffer) (reg : Region) (back : UInt32)
    (goods : List RegionPixel) : Option Bytes := do
  let front ← goods.head?
  let rawLength := 1 + reg.width * reg.height * fb.format.bytePerPixel
  if goods.all fun good => good.2 == front.2 then
    let foregroundLength := 2 + 2 * fb.format.bytePerPixel + goods.length * 2
    if rawLength < foregroundLength then sendRegionRaw st fb reg
    else sendRegionForeground st reg back front.2 goods
  else
    let coloredLength := 2 + fb.format.bytePerPixel + goods.length * (2 + fb.format.bytePerPixel)
    if rawLength < coloredLength then sendRegionRaw st fb reg
    else sendRegionColored st reg back goods

def sendRegion (st : EncoderStream) (cpu : Machine) (fb : FrameBuffer) (reg : Region) : Option Bytes := do
  let map ← fb.pixelMapWeight cpu reg
  if map.isEmpty then none
  else if map.length = 1 then do
    let pixel ← st.sendPixel (fb.pixel reg.topLeft)
    some (sendInt8 BACKGROUND ++ pixel)
  else
    let back := maxWeightPixel cpu map
    let goods ← rreProcessing reg fb back
    sendRegionRects st fb reg back goods

def blockSize : Size := ⟨16,16⟩

def sendFrameBuffer (st : EncoderStream) (cpu : Machine) (fb : FrameBuffer) : Option (List Rect) :=
  fb.sendTiles .hextile blockSize (sendRegion st cpu fb)

/-! The decoder. -/

structure Decoding where
  screen : Screen
  bgColor : UInt32
  fgColor : UInt32

section
variable (be : Bool) (clientPf : PixelFormat) (reg : Region)

def recvSubRect (coloured : Bool) (fgColor : UInt32) (s : Screen) : Reader Screen :=
  (if coloured then recvPixel be clientPf else pure fgColor) >>= fun pixel =>
    recvInt8 >>= fun val1 => recvInt8 >>= fun val2 =>
      let dst := subRegion reg (0x0F &&& val1 / 16) (0x0F &&& val1) (1 + (0x0F &&& val2 / 16)) (1 + (0x0F &&& val2))
      if outOfRange reg dst then fail else pure (fillPixel dst pixel s)

def recvSubRects (coloured : Bool) (fgColor : UInt32) : Nat → Screen → Reader Screen
  | 0, s => pure s
  | count + 1, s => recvSubRect be clientPf reg coloured fgColor s >>= recvSubRects coloured fgColor count

/- A foreground in the flags takes the colours of the sub-rectangles away. -/
def recvColors (flag : Nat) (s : Decoding) : Reader Decoding :=
  (if flag &&& BACKGROUND ≠ 0 then recvPixel be clientPf else pure s.bgColor) >>= fun bgColor =>
    (if flag &&& FOREGROUND ≠ 0 then recvPixel be clientPf else pure s.fgColor) >>= fun fgColor =>
      let coloured := flag &&& COLOURED ≠ 0 ∧ ¬flag &&& FOREGROUND ≠ 0
      let screen := fillPixel reg bgColor s.screen
      if flag &&& SUBRECTS ≠ 0 then
        recvInt8 >>= fun subRects => recvSubRects be clientPf reg (decide coloured) fgColor subRects screen >>=
          fun screen => pure ⟨screen,bgColor,fgColor⟩
      else pure ⟨screen,bgColor,fgColor⟩

def decodeHexTile (s : Decoding) : Reader Decoding :=
  if 16 < reg.width ∨ 16 < reg.height then fail
  else recvInt8 >>= fun flag =>
    if flag &&& RAW ≠ 0 then
      let pitch := reg.width * clientPf.bytePerPixel
      takeBytes (pitch * reg.height) >>= fun pixels =>
        pure {s with screen := updateRawPixels be reg pixels pitch s.screen}
    else recvColors be clientPf reg flag s

end

theorem nibblesRead {high low : Int} (highLeft : 0 ≤ high) (highRight : high < 16) (lowLeft : 0 ≤ low)
    (lowRight : low < 16) : nibbles high low % 256 / 16 = high.toNat ∧
      0x0F &&& nibbles high low % 256 / 16 = high.toNat ∧ 0x0F &&& nibbles high low % 256 = low.toNat := by
  have all : ∀ high low : Fin 16, nibbles high.val low.val % 256 / 16 = high.val ∧
      0x0F &&& nibbles high.val low.val % 256 / 16 = high.val ∧
      0x0F &&& nibbles high.val low.val % 256 = low.val := by decide +kernel
  have read := all ⟨high.toNat,by omega⟩ ⟨low.toNat,by omega⟩
  simp only [Int.toNat_of_nonneg highLeft,Int.toNat_of_nonneg lowLeft] at read
  exact read

section
variable {f : SharedFrame} {tile : Region}

/- What is sent of a sub-rectangle in a tile fits four bits. -/
theorem fieldsSmall (t : Tile f.fb blockSize tile) {good : RegionPixel}
    (inside : Good f.fb (jobOf f.fb tile) good) :
    0 ≤ good.1.x - (jobOf f.fb tile).x ∧ good.1.x - (jobOf f.fb tile).x < 16 ∧
    0 ≤ good.1.y - (jobOf f.fb tile).y ∧ good.1.y - (jobOf f.fb tile).y < 16 ∧
    0 ≤ (good.1.width : Int) - 1 ∧ (good.1.width : Int) - 1 < 16 ∧
    0 ≤ (good.1.height : Int) - 1 ∧ (good.1.height : Int) - 1 < 16 := by
  obtain ⟨left,top,right,bottom⟩ := inside.within
  have filled := inside.filled
  have wide : (jobOf f.fb tile).width ≤ 16 := t.narrow.1
  have high : (jobOf f.fb tile).height ≤ 16 := t.narrow.2
  omega

def colorBytes (f : SharedFrame) (coloured : Bool) (pixel : UInt32) : Bytes :=
  if coloured then wordBytes f.be pixel else []

theorem readsSubRect (t : Tile f.fb blockSize tile) {good : RegionPixel}
    (inside : Good f.fb (jobOf f.fb tile) good) {coloured : Bool} {fgColor : UInt32}
    (plain : coloured = false → good.2 = fgColor) (s : Screen) :
    Reads (recvSubRect f.be f.fb.format tile coloured fgColor s)
      (colorBytes f coloured good.2 ++ placeBytes (jobOf f.fb tile) good.1)
      (paint f.fb.source (good.1.moved f.fb.region.x f.fb.region.y).cells s) := by
  obtain ⟨dst,range⟩ := partRead f.fits t inside.within inside.filled
  obtain ⟨left,right,top,bottom,narrow,wide,flat,high⟩ := fieldsSmall t inside
  obtain ⟨_,x,y⟩ := nibblesRead left right top bottom
  obtain ⟨_,width,height⟩ := nibblesRead narrow wide flat high
  have filled := inside.filled
  have size : 1 + ((good.1.width : Int) - 1).toNat = good.1.width ∧
      1 + ((good.1.height : Int) - 1).toNat = good.1.height := by omega
  have uniform (p : Point) (has : (good.1.moved f.fb.region.x f.fb.region.y).Has p) :
      f.fb.source p = good.2 := inside.uniform _ (movedHas.mp has)
  have color : Reads (if coloured then recvPixel f.be f.fb.format else pure fgColor)
      (colorBytes f coloured good.2) good.2 := by
    cases coloured with
    | true => exact f.readsPixel good.2
    | false =>
      rw [plain rfl]
      exact readsPure fgColor
  rw [← fillPixelPaint uniform,placeBytes,← List.append_nil (sendInt8 (nibbles (_ - 1) _))]
  refine readsBind color (readsBind (readsInt8 _) (readsBind (readsInt8 _) ?_))
  simp only [x,y,width,height,size,dst,range]
  exact readsPure _

theorem readsSubRects (t : Tile f.fb blockSize tile) {coloured : Bool} {fgColor : UInt32}
    {goods : List RegionPixel} (inside : ∀ good ∈ goods, Good f.fb (jobOf f.fb tile) good)
    (plain : ∀ good ∈ goods, coloured = false → good.2 = fgColor) (s : Screen) :
    Reads (recvSubRects f.be f.fb.format tile coloured fgColor goods.length s)
      (goods.flatMap fun good => colorBytes f coloured good.2 ++ placeBytes (jobOf f.fb tile) good.1)
      (paint f.fb.source (covered (partCells f.fb) goods) s) := by
  induction goods generalizing s with
  | nil =>
    rw [coveredNil,paintNothing]
    exact readsPure s
  | cons good rest ih =>
    obtain ⟨first,later⟩ := List.forall_mem_cons.mp inside
    obtain ⟨firstPlain,laterPlain⟩ := List.forall_mem_cons.mp plain
    rw [← paintCovered]
    exact readsBind (readsSubRect t first firstPlain s) (ih later laterPlain _)

/-! One kind of tile after another. -/

theorem tileSmall (t : Tile f.fb blockSize tile) : ¬(16 < tile.width ∨ 16 < tile.height) := by
  have wide : tile.width ≤ 16 := t.narrow.1
  have high : tile.height ≤ 16 := t.narrow.2
  omega

/- The flags of a tile that is not raw, each of which has a background. -/
theorem readsTile (t : Tile f.fb blockSize tile) {flag : Nat} (small : flag % 256 = flag)
    (notRaw : flag &&& RAW = 0) {bytes : Bytes} {s s' : Decoding}
    (colors : Reads (recvColors f.be f.fb.format tile flag s) bytes s') :
    Reads (decodeHexTile f.be f.fb.format tile s) (sendInt8 flag ++ bytes) s' := by
  rw [decodeHexTile,if_neg (tileSmall t)]
  refine readsBind (readsInt8 flag) ?_
  rw [small,if_neg (not_not.mpr notRaw)]
  exact colors

theorem readsSolid (t : Tile f.fb blockSize tile) (back : UInt32) (s : Decoding) :
    Reads (decodeHexTile f.be f.fb.format tile s) (sendInt8 BACKGROUND ++ wordBytes f.be back)
      ⟨fillPixel tile back s.screen,back,s.fgColor⟩ := by
  refine readsTile t rfl rfl ?_
  rw [← List.append_nil (wordBytes f.be back)]
  exact readsBind (f.readsPixel back) (readsPure _)

theorem readsForeground (t : Tile f.fb blockSize tile) {back fore : UInt32} {goods : List RegionPixel}
    (inside : ∀ good ∈ goods, Good f.fb (jobOf f.fb tile) good) (same : ∀ good ∈ goods, good.2 = fore)
    (few : goods.length < 256) (s : Decoding) :
    Reads (decodeHexTile f.be f.fb.format tile s)
      (sendInt8 (BACKGROUND ||| FOREGROUND ||| SUBRECTS) ++ (wordBytes f.be back ++ (wordBytes f.be fore ++
        (sendInt8 goods.length ++ goods.flatMap fun good => placeBytes (jobOf f.fb tile) good.1))))
      ⟨paint f.fb.source (covered (partCells f.fb) goods) (fillPixel tile back s.screen),back,fore⟩ := by
  have rects : Reads (recvSubRects f.be f.fb.format tile false fore goods.length (fillPixel tile back s.screen))
      (goods.flatMap fun good => placeBytes (jobOf f.fb tile) good.1)
      (paint f.fb.source (covered (partCells f.fb) goods) (fillPixel tile back s.screen)) :=
    readsSubRects t inside (fun good listed _ => same good listed) _
  have count := readsInt8 goods.length
  rw [Nat.mod_eq_of_lt few] at count
  exact readsTile t rfl rfl (readsBind (f.readsPixel back) (readsBind (f.readsPixel fore)
    (readsBind count (readsMap rects _))))

theorem readsColored (t : Tile f.fb blockSize tile) {back : UInt32} {goods : List RegionPixel}
    (inside : ∀ good ∈ goods, Good f.fb (jobOf f.fb tile) good) (few : goods.length < 256) (s : Decoding) :
    Reads (decodeHexTile f.be f.fb.format tile s)
      (sendInt8 (BACKGROUND ||| COLOURED ||| SUBRECTS) ++ (wordBytes f.be back ++ (sendInt8 goods.length ++
        goods.flatMap fun good => wordBytes f.be good.2 ++ placeBytes (jobOf f.fb tile) good.1)))
      ⟨paint f.fb.source (covered (partCells f.fb) goods) (fillPixel tile back s.screen),back,s.fgColor⟩ := by
  have rects : Reads (recvSubRects f.be f.fb.format tile true s.fgColor goods.length
      (fillPixel tile back s.screen))
      (goods.flatMap fun good => wordBytes f.be good.2 ++ placeBytes (jobOf f.fb tile) good.1)
      (paint f.fb.source (covered (partCells f.fb) goods) (fillPixel tile back s.screen)) :=
    readsSubRects t inside (fun _ _ never => by cases never) _
  have count := readsInt8 goods.length
  rw [Nat.mod_eq_of_lt few] at count
  have foreground : Reads (if (BACKGROUND ||| COLOURED ||| SUBRECTS) &&& FOREGROUND ≠ 0 then
      recvPixel f.be f.fb.format else pure s.fgColor) [] s.fgColor := readsPure _
  refine readsTile t rfl rfl (readsBind (f.readsPixel back) ?_)
  rw [← List.nil_append (sendInt8 goods.length ++ _)]
  exact readsBind foreground (readsBind count (readsMap rects _))

theorem readsRaw (t : Tile f.fb blockSize tile) (s : Decoding) :
    Reads (decodeHexTile f.be f.fb.format tile s)
      (sendInt8 RAW ++ rawBytes f.fb f.be (jobOf f.fb tile))
      {s with screen := paint f.fb.source tile.cells s.screen} := by
  have length : (rawBytes f.fb f.be (jobOf f.fb tile)).length =
      tile.width * f.fb.format.bytePerPixel * tile.height := by
    rw [f.fourBytes,lengthRawBytes]
    rfl
  have pixels := readsTake (rawBytes f.fb f.be (jobOf f.fb tile))
  rw [length] at pixels
  rw [decodeHexTile,if_neg (tileSmall t)]
  refine readsBind (readsInt8 RAW) ?_
  rw [← rawPaints f.fits t f.be s.screen,← f.fourBytes]
  exact readsMap pixels _

/- What is sent for a tile shows it, whatever the decoder has kept from others. -/
def Shows (f : SharedFrame) (tile : Region) (data : Bytes) : Prop :=
  ∀ s, ∃ s', Reads (decodeHexTile f.be f.fb.format tile s) data s' ∧
    s'.screen = paint f.fb.source tile.cells s.screen

theorem rawShows (t : Tile f.fb blockSize tile) :
    ∃ data, sendRegionRaw f.stream f.fb (jobOf f.fb tile) = some data ∧ Shows f tile data := by
  refine ⟨_,?_,fun s => ⟨_,readsRaw t s,rfl⟩⟩
  rw [sendRegionRaw,sendsRaw,rawBytes,List.flatMap_def]
  rfl

theorem foregroundShows (t : Tile f.fb blockSize tile) {back fore : UInt32} {goods : List RegionPixel}
    (found : Rectangles f.fb back (jobOf f.fb tile) goods) (same : ∀ good ∈ goods, good.2 = fore)
    (few : goods.length < 256) :
    ∃ data, sendRegionForeground f.stream (jobOf f.fb tile) back fore goods = some data ∧
      Shows f tile data := by
  refine ⟨_,?_,fun s => ⟨_,readsForeground t found.good same few s,
    paintsTile f.fits t found.good found.covers s.screen⟩⟩
  rw [sendRegionForeground,f.sendsPixel,f.sendsPixel]
  rfl

theorem coloredShows (t : Tile f.fb blockSize tile) {back : UInt32} {goods : List RegionPixel}
    (found : Rectangles f.fb back (jobOf f.fb tile) goods) (few : goods.length < 256) :
    ∃ data, sendRegionColored f.stream (jobOf f.fb tile) back goods = some data ∧ Shows f tile data := by
  have all : goods.mapM (sendColoredRect f.stream (jobOf f.fb tile)) =
      some (goods.map fun good => wordBytes f.be good.2 ++ placeBytes (jobOf f.fb tile) good.1) := by
    apply mapMSome
    intro good _
    rw [sendColoredRect,f.sendsPixel]
    rfl
  refine ⟨_,?_,fun s => ⟨_,readsColored t found.good few s,
    paintsTile f.fits t found.good found.covers s.screen⟩⟩
  rw [sendRegionColored,f.sendsPixel,all,List.flatMap_def]
  rfl

theorem rectsShow (t : Tile f.fb blockSize tile) {back : UInt32} {goods : List RegionPixel}
    (found : Rectangles f.fb back (jobOf f.fb tile) goods) (few : goods.length < 256) (some : goods ≠ []) :
    ∃ data, sendRegionRects f.stream f.fb (jobOf f.fb tile) back goods = .some data ∧ Shows f tile data := by
  obtain ⟨front,rest,rfl⟩ := List.exists_cons_of_ne_nil some
  unfold sendRegionRects
  by_cases one : ((front :: rest).all fun good => good.2 == front.2) = true
  · have same (good) (listed : good ∈ front :: rest) : good.2 = front.2 :=
      beq_iff_eq.mp (List.all_eq_true.mp one good listed)
    simp only [List.head?_cons,bind,Option.bind,one,if_true]
    split
    · exact rawShows t
    · exact foregroundShows t found same few
  · simp only [List.head?_cons,bind,Option.bind,if_neg one]
    split
    · exact rawShows t
    · exact coloredShows t found few

/- The search leaves the background of a tile out, so there is one fewer at most. -/
theorem countSmall (t : Tile f.fb blockSize tile) {back : UInt32} {goods : List RegionPixel}
    (found : Rectangles f.fb back (jobOf f.fb tile) goods) {p : Point} (has : (jobOf f.fb tile).Has p)
    (same : f.fb.pixel p = back) : goods.length ≤ 255 := by
  have fewer := found.fewer p has same
  have area : (jobOf f.fb tile).area ≤ 16 * 16 := Nat.mul_le_mul t.narrow.1 t.narrow.2
  omega

theorem sendRegionShows (cpu : Machine) (t : Tile f.fb blockSize tile) :
    ∃ data, sendRegion f.stream cpu f.fb (jobOf f.fb tile) = some data ∧ Shows f tile data := by
  have fits := jobFits f.fits t
  have filled := jobFilled t
  obtain ⟨map,weighs,keeps⟩ := weightsOf f.fb cpu fits (jobTall t (by decide))
  have nonempty := keepsSome keeps filled
  rw [sendRegion,weighs]
  by_cases one : map.length = 1
  · have uniform (p) (has : (jobOf f.fb tile).Has p) := keepsOne keeps (by omega) filled has
    refine ⟨sendInt8 BACKGROUND ++ wordBytes f.be (f.fb.pixel (jobOf f.fb tile).topLeft),?_,fun s =>
      ⟨_,readsSolid t _ s,?_⟩⟩
    · simp [nonempty,one,f.sendsPixel]
    · exact fillPixelPaint fun p has => uniform _ (sourceJob f.fits t has)
  · have many : 1 < map.length := by
      have some := List.length_pos_iff.mpr nonempty
      omega
    obtain ⟨goods,finds,found⟩ := rreProcessingFinds fits filled f.fb (maxWeightPixel cpu map)
    obtain ⟨p,has,same⟩ := maxWeightThere cpu keeps nonempty
    have few := countSmall t found has same
    have some : goods ≠ [] := by
      obtain ⟨q,hasQ,differs⟩ := keepsTwo keeps many (maxWeightPixel cpu map)
      obtain ⟨good,listed,_⟩ := found.covers q hasQ differs
      exact List.ne_nil_of_mem listed
    obtain ⟨data,sent,shows⟩ := rectsShow t found (by omega) some
    refine ⟨data,?_,shows⟩
    simp [nonempty,one,finds,sent]

end

/- What the search finds in a tile can be counted in a byte and placed in nibbles. -/
def TileFits (cpu : Machine) (fb : FrameBuffer) (reg : Region) : Prop :=
  ∀ map goods, fb.pixelMapWeight cpu reg = some map →
    rreProcessing reg fb (maxWeightPixel cpu map) = some goods →
    goods.length ≤ 255 ∧ ∀ good ∈ goods,
      0 ≤ good.1.x - reg.x ∧ good.1.x - reg.x < 16 ∧ 0 ≤ good.1.y - reg.y ∧ good.1.y - reg.y < 16 ∧
      0 ≤ (good.1.width : Int) - 1 ∧ (good.1.width : Int) - 1 < 16 ∧
      0 ≤ (good.1.height : Int) - 1 ∧ (good.1.height : Int) - 1 < 16

end Ltsm.HexTile
