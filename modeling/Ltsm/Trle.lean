import Mathlib.Data.List.Perm.Subperm
import Ltsm.TrleTiles

/-! TRLE and ZRLE round trips. Whatever is chosen for a tile, the screen gets every
pixel of it but for the byte that a compressed pixel leaves out. -/
namespace Ltsm.Trle
open Library Regions PixelFormats PixelStreams UpdateMessages FrameBuffers CompressedPixels BitStreams TrleTiles

/- The pixels as they arrive. -/
def shown (f : SharedFrame) : Screen := fun p => keptPixel f.fb.format (f.fb.source p)

def cpixel (f : SharedFrame) (pixel : UInt32) : Bytes := cpixelBytes f.stream pixel

section
variable (f : SharedFrame)

theorem streamBits : f.stream.clientFormat.bitsPixel = 32 := f.bits

theorem sendsPixel (pixel : UInt32) : f.stream.sendCPixel pixel = some (cpixel f pixel) :=
  sendsCPixel (streamBits f) pixel

theorem readsPixel (pixel : UInt32) :
    Reads (recvCPixel f.be f.fb.format) (cpixel f pixel) (keptPixel f.fb.format pixel) := by
  have read : Reads (recvCPixel f.be f.fb.format) (cpixel f pixel) (carriedPixel f.stream f.be pixel) :=
    readsCPixel (streamBits f) f.be pixel
  have same : carriedPixel f.stream f.be pixel = keptPixel f.fb.format pixel := carriedSame rfl pixel
  rwa [same] at read

theorem sendsPixels (pixels : List UInt32) :
    sendCPixels f.stream pixels = some (pixels.flatMap (cpixel f)) := by
  have all : pixels.mapM f.stream.sendCPixel = some (pixels.map (cpixel f)) :=
    mapMSome fun pixel _ => sendsPixel f pixel
  rw [sendCPixels,all,List.flatMap_def]
  rfl

theorem readsPalette (colors : List UInt32) :
    Reads (recvPalette f.be f.fb.format colors.length) (colors.flatMap (cpixel f))
      (colors.map (keptPixel f.fb.format)) := by
  induction colors with
  | nil => exact readsPure []
  | cons color rest ih => exact readsBind (readsPixel f color) (readsMap ih _)

/- The pixels of a job are those of the tile on the screen. -/
theorem jobLine {sz : Size} {tile : Region} (t : Tile f.fb sz tile) (py : Nat) :
    ((jobOf f.fb tile).line py).map f.fb.pixel = (tile.line py).map f.fb.source := by
  rw [jobMoved f.fits t]
  simp only [Region.line,Region.moved,List.map_map]
  apply List.map_congr_left
  intro px _
  simp only [Function.comp,FrameBuffer.pixel,FrameBuffer.source]
  congr 2 <;> omega

theorem jobPixels {sz : Size} {tile : Region} (t : Tile f.fb sz tile) :
    pixelsOf f.fb (jobOf f.fb tile) = tile.points.map f.fb.source := by
  rw [pixelsOf,pointsLines,pointsLines,List.map_flatMap,List.map_flatMap]
  exact List.flatMap_congr fun py _ => jobLine f t py

theorem readsRaw (points : List Point) (s : Screen) :
    Reads (recvRaw f.be f.fb.format points s) ((points.map f.fb.source).flatMap (cpixel f))
      (paint (shown f) (among points) s) := by
  induction points generalizing s with
  | nil =>
    rw [amongNil]
    exact readsPure s
  | cons p rest ih =>
    rw [← amongCons,← setPixelPaint rfl]
    exact readsBind (readsPixel f (f.fb.source p)) (ih _)

end

/-! Runs. -/

theorem toRLEExpands {fb : FrameBuffer} (cpu : Machine) {reg : Region} (fits : reg.Fits)
    (tall : 1024 < reg.width * reg.height → 4 ≤ reg.height) :
    ∃ rle, toRLE fb cpu reg = some rle ∧ expand rle = pixelsOf fb reg ∧ ∀ run ∈ rle, 0 < run.2 := by
  unfold toRLE
  by_cases splits : cpu.splits reg = true
  · obtain ⟨wide,high⟩ := quarterFilled splits tall
    obtain ⟨blocks,divides,points⟩ := divideRows fits wide high
    have quarters : reg.divideBlocks (FrameBuffer.quarter reg) = some blocks := divides
    refine ⟨_,by rw [if_pos splits,quarters]; rfl,?_,?_⟩
    · rw [pixelsOf,← points,List.map_flatMap]
      clear divides quarters points
      induction blocks with
      | nil => rfl
      | cons block rest ih => rw [List.flatMap_cons,List.flatMap_cons,expandAppend,ih,runsOfExpand,pixelsOf]
    · intro run listed
      obtain ⟨block,_,inBlock⟩ := List.mem_flatMap.mp listed
      exact runsOfFilled _ run inBlock
  · exact ⟨_,if_neg splits,runsOfExpand _,runsOfFilled _⟩

theorem readsRunLength {length : Nat} (some : 0 < length) (low : length < 4294967296) :
    Reads recvRunLength (runLengthBytes length) length := by
  have from_ (length before : Nat) (some : 0 < length) (low : before + length < 4294967296) :
      Reads (runLengthFrom before) (runLengthBytes length) (before + length) := by
    induction length using Nat.strongRecOn generalizing before with
    | ind length ih =>
      intro rest
      rw [runLengthBytes]
      by_cases more : 255 < length
      · have later := ih (length - 255) (by omega) (before + 255) (by omega) (by omega) rest
        have total : before + 255 + (length - 255) = before + length := by omega
        rw [if_pos more]
        rw [total] at later
        exact later
      · have last : UInt8.ofNat ((length - 1) % 255) ≠ 255 := by
          intro same
          have number := congrArg UInt8.toNat same
          rw [UInt8.toNat_ofNat'] at number
          have never : (255 : UInt8).toNat = 255 := rfl
          omega
        have number : (UInt8.ofNat ((length - 1) % 255)).toNat + 1 = length := by
          rw [UInt8.toNat_ofNat']
          omega
        rw [if_neg more]
        simp only [sendInt8,List.singleton_append,StateT.run,runLengthFrom,if_neg last,Nat.add_assoc,number,
          Nat.mod_eq_of_lt low]
  have read := from_ length 0 some (by omega)
  rwa [Nat.zero_add] at read

/- What is sent of a length reads as that length, whatever follows it. -/
theorem runLengthReturned (length : UInt32) (some : 1 ≤ length) :
    ∃ bytes, sendRunLength length.toNat = Option.some bytes ∧ Reads recvRunLength bytes length.toNat := by
  have positive : 0 < length.toNat := UInt32.le_iff_toNat_le.mp some
  exact ⟨runLengthBytes length.toNat,if_neg (Nat.ne_of_gt positive),readsRunLength positive length.toNat_lt⟩

theorem runLengthReturnedLong :
    (1 : UInt32) ≤ 511 ∧ ∃ bytes, sendRunLength (511 : UInt32).toNat = Option.some bytes ∧
      Reads recvRunLength bytes (511 : UInt32).toNat :=
  ⟨by decide,runLengthReturned 511 (by decide)⟩

theorem fillRunPaints {source : Screen} {pixel : UInt32} (points others : List Point)
    (same : ∀ p ∈ points, source p = pixel) (s : Screen) :
    fillRun pixel points.length (points ++ others) s = some (others,paint source (among points) s) := by
  induction points generalizing s with
  | nil => simp [fillRun]
  | cons p rest ih =>
    obtain ⟨first,later⟩ := List.forall_mem_cons.mp same
    rw [← amongCons,← setPixelPaint first]
    exact ih later _

/-! Palettes. -/

def colorIndex (colors : List UInt32) (color : UInt32) : Nat := (findColorIndex colors.zipIdx color).getD 0

theorem findsColor {colors : List UInt32} {color : UInt32} (listed : color ∈ colors) :
    findColorIndex colors.zipIdx color = some (colorIndex colors color) ∧
      colors[colorIndex colors color]? = some color := by
  unfold colorIndex findColorIndex
  cases found : colors.zipIdx.find? fun pair => pair.1 == color with
  | none =>
    obtain ⟨index,here⟩ := List.mem_iff_getElem?.mp listed
    have never := List.find?_eq_none.mp found (color,index) (List.mk_mem_zipIdx_iff_getElem?.mpr here)
    simp at never
  | some pair =>
    have there := List.mem_zipIdx_iff_getElem?.mp (List.mem_of_find?_eq_some found)
    have same : pair.1 = color := by simpa using List.find?_some found
    exact ⟨rfl,same ▸ there⟩

theorem colorIndexLow {colors : List UInt32} {color : UInt32} (listed : color ∈ colors) :
    colorIndex colors color < colors.length := by
  obtain ⟨_,there⟩ := findsColor listed
  exact (List.getElem?_eq_some_iff.mp there).1

theorem paletteAt (pf : PixelFormat) {colors : List UInt32} {color : UInt32} (listed : color ∈ colors) :
    (colors.map (keptPixel pf))[colorIndex colors color]? = some (keptPixel pf color) := by
  rw [List.getElem?_map,(findsColor listed).2]
  rfl

section
variable {f : SharedFrame} {colors : List UInt32} {field : Nat}

/- A row is unpacked from its right end, as the number it spells gets shorter. -/
theorem unpacks (points : List Point) (listed : ∀ p ∈ points, f.fb.source p ∈ colors)
    (small : colors.length ≤ 2 ^ field) {sb : StreamBits}
    (h : Unpacked sb (field * points.length) (spell field (points.map fun p => colorIndex colors (f.fb.source p))))
    (s : Screen) :
    unpackLine (colors.map (keptPixel f.fb.format)) field points.reverse sb s =
      some (paint (shown f) (among points) s) := by
  induction points using List.reverseRecOn generalizing sb s with
  | nil => simp [unpackLine]
  | append_singleton points last ih =>
    obtain ⟨firsts,here⟩ : (∀ p ∈ points, f.fb.source p ∈ colors) ∧ f.fb.source last ∈ colors := by
      simpa [or_imp,forall_and] using listed
    have low := (colorIndexLow here).trans_le small
    rw [List.length_append,List.length_singleton,Nat.mul_add,Nat.mul_one,List.map_append,List.map_singleton,
      spellSnoc] at h
    obtain ⟨rest,pops,left⟩ := unpackedValue h
    rw [Nat.add_comm,Nat.add_mul_mod_self_right,Nat.mod_eq_of_lt low] at pops
    rw [Nat.add_comm,Nat.add_mul_div_right _ _ (Nat.two_pow_pos field),Nat.div_eq_of_lt low,Nat.zero_add] at left
    have whole : among (points ++ [last]) = among (last :: points) := by
      ext q
      simp [among,or_comm]
    rw [List.reverse_append,List.reverse_singleton,List.singleton_append,unpackLine,pops,whole,← amongCons,
      ← setPixelPaint rfl]
    simp only [bind,Option.bind,paletteAt f.fb.format here]
    exact ih firsts left _

variable {sz : Size} {tile : Region}

/- One packed row, put behind the rows before it. -/
theorem packedLine (t : Tile f.fb sz tile) {py : Nat} (listed : ∀ p ∈ tile.line py, f.fb.source p ∈ colors)
    (small : colors.length ≤ 2 ^ field) {sb : StreamBits} (aligned : sb.bitpos = 7) :
    ∃ next data, packLine f.fb field colors.zipIdx sb ((jobOf f.fb tile).line py) = some next ∧
      next.bitpos = 7 ∧ next.toVector = sb.toVector ++ data ∧ data.length = rowLength (field * tile.width) ∧ ∀ s,
        Reads (recvLine (colors.map (keptPixel f.fb.format)) field tile.width (tile.line py) s) data
          (paint (shown f) (among (tile.line py)) s) := by
  let indices := (tile.line py).map fun p => colorIndex colors (f.fb.source p)
  have pixels : ((jobOf f.fb tile).line py).mapM (fun p => findColorIndex colors.zipIdx (f.fb.pixel p)) =
      some indices := by
    have found : ((tile.line py).map f.fb.source).mapM (findColorIndex colors.zipIdx) =
        some (((tile.line py).map f.fb.source).map (colorIndex colors)) := by
      apply mapMSome
      intro pixel there
      obtain ⟨p,inLine,rfl⟩ := List.mem_map.mp there
      exact (findsColor (listed p inLine)).1
    rw [← jobLine f t,List.mapM_map,jobLine f t,List.map_map] at found
    exact found
  have low (index) (there : index ∈ indices) : index < 2 ^ field := by
    obtain ⟨p,inLine,rfl⟩ := List.mem_map.mp there
    exact (colorIndexLow (listed p inLine)).trans_le small
  have wide : (tile.line py).length = tile.width := by simp [Region.line]
  have packed := packedRow (packedStart sb.vecbuf aligned rfl) indices low
  obtain ⟨row,rest,bytes,length,unpack,left⟩ := packedUnpacked packed
  have count : indices.length = tile.width := by rw [List.length_map,wide]
  refine ⟨_,row.reverse,by rw [packLine,pixels]; rfl,rfl,?_,by rw [List.length_reverse,length,count],fun s => ?_⟩
  · rw [StreamBits.toVector,StreamBits.pushAlign,bytes,List.reverse_append]
    rfl
  · have took := readsTake row.reverse
    rw [List.length_reverse,length,count] at took
    rw [count] at unpack left
    rw [← wide] at left
    rw [← List.append_nil row.reverse]
    refine readsBind took ?_
    rw [unpack,Option.bind_some,unpacks (tile.line py) listed small left]
    exact readsOption _

theorem packedLines (t : Tile f.fb sz tile) (rows : List Nat)
    (stored : ∀ py ∈ rows, (tile.line py).map storedPoint = tile.line py)
    (listed : ∀ py ∈ rows, ∀ p ∈ tile.line py, f.fb.source p ∈ colors)
    (small : colors.length ≤ 2 ^ field) {sb : StreamBits} (aligned : sb.bitpos = 7) :
    ∃ last data, rows.foldlM (fun sb py => packLine f.fb field colors.zipIdx sb ((jobOf f.fb tile).line py)) sb =
        some last ∧ last.toVector = sb.toVector ++ data ∧ data.length = rows.length * rowLength (field * tile.width) ∧
      ∀ s, Reads (recvLines (colors.map (keptPixel f.fb.format)) field tile rows s) data
        (paint (shown f) (among (rows.flatMap tile.line)) s) := by
  induction rows generalizing sb with
  | nil =>
    refine ⟨sb,[],rfl,(List.append_nil _).symm,by simp,fun s => ?_⟩
    rw [List.flatMap_nil,amongNil]
    exact readsPure s
  | cons py rest ih =>
    obtain ⟨first,later⟩ := List.forall_mem_cons.mp listed
    obtain ⟨same,behind⟩ := List.forall_mem_cons.mp stored
    obtain ⟨next,head,packs,again,bytes,row,reads⟩ := packedLine t first small aligned
    obtain ⟨last,tail,returns,all,others,readsRest⟩ := ih behind later again
    refine ⟨last,head ++ tail,?_,?_,?_,fun s => ?_⟩
    · rw [List.foldlM_cons,packs]
      exact returns
    · rw [all,bytes,List.append_assoc]
    · rw [List.length_append,row,others,List.length_cons,Nat.succ_mul,Nat.add_comm]
    · rw [List.flatMap_cons,← amongAppend,recvLines,same]
      exact readsBind (reads s) (readsRest _)

end

/-! Tiles sent in runs. -/

/- The points of the first run, and those after it. -/
theorem firstRun {source : Screen} {points : List Point} {run : UInt32 × Nat} {rest : List (UInt32 × Nat)}
    (same : points.map source = expand (run :: rest)) :
    ∃ first later, points = first ++ later ∧ first.length = run.2 ∧ (∀ p ∈ first, source p = run.1) ∧
      later.map source = expand rest := by
  rw [expandCons] at same
  obtain ⟨first,later,rfl,here,after⟩ := List.map_eq_append_iff.mp same
  refine ⟨first,later,rfl,by rw [← List.length_map,here,List.length_replicate],fun p listed => ?_,after⟩
  have among : source p ∈ List.replicate run.2 run.1 := here ▸ List.mem_map_of_mem listed
  exact List.eq_of_mem_replicate among

section
variable {f : SharedFrame} {colors : List UInt32}

/- The first run of those that are left goes to the points it covers. -/
theorem fillsRun {run : UInt32 × Nat} {first : List Point} (later : List Point)
    (length : first.length = run.2) (same : ∀ p ∈ first, f.fb.source p = run.1) (s : Screen) :
    fillRun (keptPixel f.fb.format run.1) run.2 (first ++ later) s =
      some (later,paint (shown f) (among first) s) := by
  rw [← length]
  exact fillRunPaints first later (fun p listed => congrArg (keptPixel f.fb.format) (same p listed)) s

theorem readsPlain (rle : List (UInt32 × Nat)) (filled : ∀ run ∈ rle, 0 < run.2) {points : List Point}
    (same : points.map f.fb.source = expand rle) (low : points.length < 4294967296) {fuel : Nat}
    (enough : rle.length ≤ fuel) (s : Screen) :
    Reads (recvPlain f.be f.fb.format fuel points s)
      (rle.flatMap fun run => cpixel f run.1 ++ runLengthBytes run.2) (paint (shown f) (among points) s) := by
  induction rle generalizing points fuel s with
  | nil =>
    obtain rfl := List.map_eq_nil_iff.mp same
    rw [amongNil,recvPlain]
    exact readsPure s
  | cons run rest ih =>
    obtain ⟨some,later⟩ := List.forall_mem_cons.mp filled
    obtain ⟨first,others,rfl,length,uniform,after⟩ := firstRun same
    obtain ⟨fuel,rfl⟩ : ∃ left, fuel = left + 1 := ⟨fuel - 1,by rw [List.length_cons] at enough; omega⟩
    obtain ⟨p,tail,split⟩ := List.exists_cons_of_length_pos (length ▸ some : 0 < first.length)
    have step : recvPlain f.be f.fb.format (fuel + 1) (first ++ others) s =
        (recvCPixel f.be f.fb.format >>= fun pixel => recvRunLength >>= fun runLength =>
          ofOption (fillRun pixel runLength (first ++ others) s) >>= fun left =>
            recvPlain f.be f.fb.format fuel left.1 left.2) := by
      rw [split]
      rfl
    rw [List.length_append] at low
    rw [step,List.flatMap_cons,List.append_assoc]
    refine readsBind (readsPixel f run.1) (readsBind (readsRunLength some (by omega)) ?_)
    rw [fillsRun others length uniform,← amongAppend]
    exact readsBind (readsOption _) (ih later after (by omega) (by simpa using enough) _)

def indexBytes (colors : List UInt32) (run : UInt32 × Nat) : Bytes :=
  if run.2 = 1 then sendInt8 (colorIndex colors run.1)
  else sendInt8 (colorIndex colors run.1 + 128) ++ runLengthBytes run.2

theorem readsIndices (few : colors.length < 128) (rle : List (UInt32 × Nat)) (filled : ∀ run ∈ rle, 0 < run.2)
    (listed : ∀ run ∈ rle, run.1 ∈ colors) {points : List Point}
    (same : points.map f.fb.source = expand rle) (low : points.length < 4294967296) {fuel : Nat}
    (enough : rle.length ≤ fuel) (s : Screen) :
    Reads (recvIndices (colors.map (keptPixel f.fb.format)) fuel points s) (rle.flatMap (indexBytes colors))
      (paint (shown f) (among points) s) := by
  induction rle generalizing points fuel s with
  | nil =>
    obtain rfl := List.map_eq_nil_iff.mp same
    rw [amongNil,recvIndices]
    exact readsPure s
  | cons run rest ih =>
    obtain ⟨some,later⟩ := List.forall_mem_cons.mp filled
    obtain ⟨here,others'⟩ := List.forall_mem_cons.mp listed
    obtain ⟨first,others,rfl,length,uniform,after⟩ := firstRun same
    obtain ⟨fuel,rfl⟩ : ∃ left, fuel = left + 1 := ⟨fuel - 1,by rw [List.length_cons] at enough; omega⟩
    obtain ⟨p,tail,split⟩ := List.exists_cons_of_length_pos (length ▸ some : 0 < first.length)
    have below := colorIndexLow here
    rw [List.length_append] at low
    have step : recvIndices (colors.map (keptPixel f.fb.format)) (fuel + 1) (first ++ others) s =
        (recvInt8 >>= fun index =>
          ofOption (colors.map (keptPixel f.fb.format))[if index < 128 then index else index - 128]? >>= fun pixel =>
            (if index < 128 then pure 1 else recvRunLength) >>= fun runLength =>
              ofOption (fillRun pixel runLength (first ++ others) s) >>= fun left =>
                recvIndices (colors.map (keptPixel f.fb.format)) fuel left.1 left.2) := by
      rw [split]
      rfl
    have after : Reads (ofOption (fillRun (keptPixel f.fb.format run.1) run.2 (first ++ others) s) >>= fun left =>
        recvIndices (colors.map (keptPixel f.fb.format)) fuel left.1 left.2) (rest.flatMap (indexBytes colors))
        (paint (shown f) (among (first ++ others)) s) := by
      rw [fillsRun others length uniform,← amongAppend]
      exact readsBind (readsOption _) (ih later others' after (by omega) (by simpa using enough) _)
    rw [step,List.flatMap_cons,indexBytes]
    by_cases single : run.2 = 1
    · have index := readsInt8 (colorIndex colors run.1)
      rw [Nat.mod_eq_of_lt (by omega)] at index
      have small : colorIndex colors run.1 < 128 := by omega
      rw [single] at after
      rw [if_pos single]
      refine readsBind index ?_
      rw [if_pos small,if_pos small,paletteAt f.fb.format here]
      exact readsBind (readsOption _) (readsBind (readsPure 1) after)
    · have index := readsInt8 (colorIndex colors run.1 + 128)
      rw [Nat.mod_eq_of_lt (by omega)] at index
      have large : ¬colorIndex colors run.1 + 128 < 128 := by omega
      rw [if_neg single,List.append_assoc]
      refine readsBind index ?_
      rw [if_neg large,if_neg large,Nat.add_sub_cancel,paletteAt f.fb.format here,
        ← List.nil_append (runLengthBytes run.2 ++ _)]
      exact readsBind (readsOption _) (readsBind (readsRunLength some (by omega)) after)

end

/-! One kind of tile after another. -/

def blockSize : Size := ⟨64,64⟩

/- The points of a tile on a screen are stored as they are. -/
theorem storedLine {tile : Region} (fits : tile.Fits) {py : Nat} (below : py < tile.height) :
    (tile.line py).map storedPoint = tile.line py := by
  obtain ⟨left,top,right,bottom⟩ := fits
  refine (List.map_congr_left fun p listed => ?_).trans (List.map_id _)
  obtain ⟨px,inLine,rfl⟩ := List.mem_map.mp listed
  have past := List.mem_range.mp inLine
  simp only [storedPoint,id_eq,Point.mk.injEq]
  exact ⟨toInt16Fits (by omega) (by omega),toInt16Fits (by omega) (by omega)⟩

theorem storedPoints {tile : Region} (fits : tile.Fits) : tile.points.map storedPoint = tile.points := by
  rw [pointsLines,List.map_flatMap]
  exact List.flatMap_congr fun py listed => storedLine fits (List.mem_range.mp listed)

/- A tile has few points. -/
theorem pointsFew {fb : FrameBuffer} {tile : Region} (t : Tile fb blockSize tile) : tile.points.length ≤ 4096 := by
  rw [lengthPoints]
  exact Nat.mul_le_mul t.narrow.1 t.narrow.2

theorem readsRemaining {α : Type} {f : Nat → Reader α} {bytes : Bytes} {a : α}
    (reads : ∀ left, bytes.length ≤ left → Reads (f left) bytes a) : Reads (remaining >>= f) bytes a := by
  intro rest
  exact reads (bytes ++ rest).length (by rw [List.length_append]; omega) rest

/- As many bytes at least as there are parts. -/
theorem lengthFilled {α : Type} {send : α → Bytes} {items : List α} (filled : ∀ item ∈ items, send item ≠ []) :
    items.length ≤ (items.flatMap send).length := by
  induction items with
  | nil => exact Nat.le_refl 0
  | cons item rest ih =>
    obtain ⟨first,later⟩ := List.forall_mem_cons.mp filled
    have some := List.length_pos_iff.mpr first
    have more := ih later
    rw [List.flatMap_cons,List.length_append,List.length_cons]
    omega

/- What is sent for a tile shows it, but for what compressed pixels lose, and is not
longer than the raw pixels or packed ones. -/
structure Shows (f : SharedFrame) (tile : Region) (data : Bytes) : Prop where
  some : data ≠ []
  short : data.length ≤ 16384
  reads : ∀ s, Reads (updateSubRegion f.be f.fb.format tile s) data (paint (shown f) tile.cells s)

theorem lengthRunLength {length : Nat} (some : 0 < length) :
    (runLengthBytes length).length = (length - 1) / 255 + 1 := by
  induction length using Nat.strongRecOn with
  | ind length ih =>
    rw [runLengthBytes]
    by_cases more : 255 < length
    · have later := ih (length - 255) (by omega) (by omega)
      rw [if_pos more,List.length_append,later]
      simp only [sendInt8,List.length_singleton]
      omega
    · rw [if_neg more]
      simp only [sendInt8,List.length_singleton]
      omega

section
variable {f : SharedFrame} {tile : Region} {colors : List UInt32}

theorem lengthCPixels (pixels : List UInt32) : (pixels.flatMap (cpixel f)).length = 3 * pixels.length := by
  have three (pixel) (_ : pixel ∈ pixels) : (cpixel f pixel).length = 3 := lengthCPixel f.stream pixel
  rw [lengthBlocks pixels three,Nat.mul_comm]

/- The estimates are what is sent, or a little more. -/
theorem lengthPlain {rle : List (UInt32 × Nat)} (filled : ∀ run ∈ rle, 0 < run.2) :
    1 + (rle.flatMap fun run => cpixel f run.1 ++ runLengthBytes run.2).length = rlePlainLength rle := by
  have from_ (v : Nat) : v + (rle.flatMap fun run => cpixel f run.1 ++ runLengthBytes run.2).length =
      rle.foldl (fun v run => v + 3 + (run.2 - 1) / 255 + 1) v := by
    induction rle generalizing v with
    | nil => rfl
    | cons run rest ih =>
      obtain ⟨first,later⟩ := List.forall_mem_cons.mp filled
      have pixel : (cpixel f run.1).length = 3 := lengthCPixel f.stream run.1
      rw [List.foldl_cons,← ih later,List.flatMap_cons,List.length_append,List.length_append,pixel,
        lengthRunLength first]
      omega
  exact from_ 1

theorem lengthIndices {rle : List (UInt32 × Nat)} (filled : ∀ run ∈ rle, 0 < run.2) (v : Nat) :
    v + (rle.flatMap (indexBytes colors)).length ≤ rle.foldl (fun v run => v + 1 + (run.2 - 1) / 255 + 1) v := by
  induction rle generalizing v with
  | nil => exact Nat.le_refl v
  | cons run rest ih =>
    obtain ⟨first,later⟩ := List.forall_mem_cons.mp filled
    have index : (indexBytes colors run).length ≤ 1 + ((run.2 - 1) / 255 + 1) := by
      unfold indexBytes
      split
      · simp [sendInt8]
      · rw [List.length_append,lengthRunLength first]
        exact Nat.le_refl _
    have more := ih later (v + 1 + (run.2 - 1) / 255 + 1)
    rw [List.foldl_cons,List.flatMap_cons,List.length_append]
    omega

/- The raw length of a tile. -/
theorem rawShort (t : Tile f.fb blockSize tile) :
    1 + 3 * (jobOf f.fb tile).width * (jobOf f.fb tile).height ≤ 12289 := by
  have wide : (jobOf f.fb tile).width ≤ 64 := t.narrow.1
  have high : (jobOf f.fb tile).height ≤ 64 := t.narrow.2
  have raw : 3 * (jobOf f.fb tile).width * (jobOf f.fb tile).height ≤ 3 * 64 * 64 :=
    Nat.mul_le_mul (Nat.mul_le_mul_left 3 wide) high
  omega

theorem solidShows {back : UInt32} (uniform : ∀ p, tile.Has p → f.fb.source p = back) :
    ∃ data, sendSolid f.stream back = some data ∧ Shows f tile data := by
  refine ⟨sendInt8 1 ++ cpixel f back,by rw [sendSolid,sendsPixel]; rfl,by simp [sendInt8],?_,fun s => ?_⟩
  · have pixel : (cpixel f back).length = 3 := lengthCPixel f.stream back
    simp [sendInt8,pixel]
  · have painted : fillPixel tile (keptPixel f.fb.format back) s = paint (shown f) tile.cells s :=
      fillPixelPaint fun p has => congrArg (keptPixel f.fb.format) (uniform p has)
    rw [← painted]
    exact readsBind (readsInt8 1) (readsMap (readsPixel f back) _)

theorem rawShows (t : Tile f.fb blockSize tile) :
    ∃ data, sendRegionRaw f.stream f.fb (jobOf f.fb tile) = some data ∧ Shows f tile data := by
  refine ⟨_,by rw [sendRegionRaw,sendsPixels]; rfl,by simp [sendInt8],?_,fun s => ?_⟩
  · have raw := rawShort t
    have count : (pixelsOf f.fb (jobOf f.fb tile)).length =
        (jobOf f.fb tile).width * (jobOf f.fb tile).height := by
      rw [pixelsOf,List.length_map,lengthPoints,Region.area]
    rw [List.length_append,lengthCPixels,count,← Nat.mul_assoc]
    simp only [sendInt8,List.length_singleton]
    omega
  · rw [jobPixels f t,← amongPoints]
    refine readsBind (readsInt8 0) ?_
    rw [storedPoints (withinFits t.within f.fits)]
    exact readsRaw f tile.points s

theorem sendsPalette (colors : List UInt32) :
    sendCPixels f.stream (colors.zipIdx.map Prod.fst) = some (colors.flatMap (cpixel f)) := by
  rw [List.zipIdx_map_fst,sendsPixels]

theorem packedShows (t : Tile f.fb blockSize tile) (listed : ∀ p, tile.Has p → f.fb.source p ∈ colors)
    (some : 2 ≤ colors.length) (few : colors.length ≤ 16) :
    ∃ data, sendRegionPacked f.stream f.fb (jobOf f.fb tile) (fieldWidth colors.length) colors.zipIdx = .some data ∧
      Shows f tile data := by
  have small : colors.length ≤ 2 ^ fieldWidth colors.length := by
    unfold fieldWidth
    split
    · exact few
    · split <;> omega
  have stored (py) (below : py ∈ List.range tile.height) : (tile.line py).map storedPoint = tile.line py :=
    storedLine (withinFits t.within f.fits) (List.mem_range.mp below)
  have rows (py) (_ : py ∈ List.range tile.height) (p) (inLine : p ∈ tile.line py) :
      f.fb.source p ∈ colors := by
    have there : p ∈ tile.points := List.mem_flatMap.mpr ⟨py,‹_›,inLine⟩
    exact listed p (memPoints.mp there)
  obtain ⟨last,data,packs,bytes,length,reads⟩ := packedLines t (List.range tile.height) stored rows small
    (show streamBitsPack.bitpos = 7 from rfl)
  have vector : last.toVector = data := bytes
  have high : (jobOf f.fb tile).height = tile.height := rfl
  refine ⟨_,by rw [sendRegionPacked,sendsPalette,high,packs]; rfl,by simp [sendInt8],?_,fun s => ?_⟩
  · have bits : fieldWidth colors.length * tile.width ≤ 4 * 64 := by
      have field : fieldWidth colors.length ≤ 4 := by
        unfold fieldWidth
        split
        · exact Nat.le_refl 4
        · split <;> omega
      exact Nat.mul_le_mul field t.narrow.1
    have row : rowLength (fieldWidth colors.length * tile.width) ≤ 33 := by
      unfold rowLength
      split <;> omega
    have all : tile.height * rowLength (fieldWidth colors.length * tile.width) ≤ 64 * 33 :=
      Nat.mul_le_mul t.narrow.2 row
    rw [List.length_range] at length
    rw [List.length_append,List.length_append,lengthCPixels,vector,length]
    simp only [sendInt8,List.length_singleton]
    omega
  · have type := readsInt8 colors.length
    rw [Nat.mod_eq_of_lt (by omega)] at type
    rw [List.length_zipIdx,vector,← amongPoints]
    refine readsBind type ?_
    rw [if_neg (by omega),if_neg (by omega),if_pos ⟨some,few⟩]
    exact readsBind (readsPalette f colors) (reads s)

theorem plainShows (t : Tile f.fb blockSize tile) {rle : List (UInt32 × Nat)} (filled : ∀ run ∈ rle, 0 < run.2)
    (same : tile.points.map f.fb.source = expand rle) (short : rlePlainLength rle ≤ 12289) :
    ∃ data, sendRegionPlain f.stream rle = some data ∧ Shows f tile data := by
  have runs : rle.mapM (sendPlainRun f.stream) =
      some (rle.map fun run => cpixel f run.1 ++ runLengthBytes run.2) := by
    apply mapMSome
    intro run listed
    rw [sendPlainRun,sendsPixel,sendRunLength,if_neg (Nat.ne_of_gt (filled run listed))]
    rfl
  have taken (run) (_ : run ∈ rle) : cpixel f run.1 ++ runLengthBytes run.2 ≠ [] := by
    have three : (cpixel f run.1).length = 3 := lengthCPixel f.stream run.1
    refine List.ne_nil_of_length_pos ?_
    rw [List.length_append]
    omega
  refine ⟨_,by rw [sendRegionPlain,runs]; rfl,by simp [sendInt8],?_,fun s => ?_⟩
  · rw [← lengthPlain filled (f := f)] at short
    rw [← List.flatMap_def,List.length_append]
    simp only [sendInt8,List.length_singleton]
    omega
  · have few := pointsFew t
    rw [← List.flatMap_def,← amongPoints]
    refine readsBind (readsInt8 128) ?_
    rw [storedPoints (withinFits t.within f.fits)]
    exact readsRemaining fun left enough =>
      readsPlain rle filled same (by omega) ((lengthFilled taken).trans enough) s

theorem paletteShows (t : Tile f.fb blockSize tile) {rle : List (UInt32 × Nat)} (filled : ∀ run ∈ rle, 0 < run.2)
    (same : tile.points.map f.fb.source = expand rle) (listed : ∀ run ∈ rle, run.1 ∈ colors)
    (some : 16 < colors.length) (few : colors.length < 128)
    (short : rle.foldl (fun v run => v + 1 + (run.2 - 1) / 255 + 1) (1 + 3 * colors.length) ≤ 12289) :
    ∃ data, sendRegionPalette f.stream colors.zipIdx rle = .some data ∧ Shows f tile data := by
  have runs : rle.mapM (sendPaletteRun colors.zipIdx) = .some (rle.map (indexBytes colors)) := by
    apply mapMSome
    intro run here
    rw [sendPaletteRun,(findsColor (listed run here)).1,sendRunLength,
      if_neg (Nat.ne_of_gt (filled run here)),indexBytes]
    simp only [bind,Option.bind]
    split <;> rfl
  have taken (run) (_ : run ∈ rle) : indexBytes colors run ≠ [] := by
    unfold indexBytes
    split
    · exact List.cons_ne_nil _ _
    · exact List.cons_ne_nil _ _
  refine ⟨_,by rw [sendRegionPalette,sendsPalette,runs]; rfl,by simp [sendInt8],?_,fun s => ?_⟩
  · have sent := (@lengthIndices colors rle filled _).trans short
    rw [← List.flatMap_def,List.length_append,List.length_append,lengthCPixels]
    simp only [sendInt8,List.length_singleton]
    omega
  · have type := readsInt8 (colors.length + 128)
    rw [Nat.mod_eq_of_lt (by omega)] at type
    rw [List.length_zipIdx,← List.flatMap_def,← amongPoints]
    refine readsBind type ?_
    rw [if_neg (by omega),if_neg (by omega),if_neg (by omega),if_neg (by omega),if_neg (by omega),
      Nat.add_sub_cancel]
    have points := pointsFew t
    refine readsBind (readsPalette f colors) ?_
    rw [storedPoints (withinFits t.within f.fits)]
    exact readsRemaining fun left enough =>
      readsIndices few rle filled listed same (by omega) ((lengthFilled taken).trans enough) s

/-! The choice between them. -/

/- Runs of palette indices are only sent if there are few of them. -/
theorem paletteFew (t : Tile f.fb blockSize tile) {rle : List (UInt32 × Nat)}
    (short : rlePaletteLength colors.zipIdx rle < 1 + 3 * (jobOf f.fb tile).width * (jobOf f.fb tile).height) :
    rle.length < 128 ∧
      rle.foldl (fun v run => v + 1 + (run.2 - 1) / 255 + 1) (1 + 3 * colors.length) ≤ 12289 := by
  have raw := rawShort t
  unfold rlePaletteLength at short
  split at short
  · rename_i between
    rw [List.length_zipIdx] at short
    exact ⟨between.2,by omega⟩
  · omega

theorem runsShow (t : Tile f.fb blockSize tile) {rle : List (UInt32 × Nat)} (filled : ∀ run ∈ rle, 0 < run.2)
    (same : tile.points.map f.fb.source = expand rle) (distinct : colors.Nodup)
    (listed : ∀ pix, pix ∈ colors ↔ pix ∈ tile.points.map f.fb.source) (many : 16 < colors.length) :
    ∃ data, sendRegionRuns f.stream f.fb (jobOf f.fb tile) colors.zipIdx rle = some data ∧ Shows f tile data := by
  have raw := rawShort t
  unfold sendRegionRuns
  simp only
  split
  · rename_i chosen
    exact plainShows t filled same (by omega)
  split
  · rename_i chosen
    have ofRuns (pix : UInt32) : pix ∈ colors ↔ pix ∈ rle.map Prod.fst := by
      rw [listed,same,memExpand filled]
    have fewer : colors.length ≤ rle.length := by
      have sub : colors.Subperm (rle.map Prod.fst) :=
        List.subperm_of_subset distinct fun pix there => (ofRuns pix).mp there
      simpa using sub.length_le
    obtain ⟨few,short⟩ := paletteFew t chosen.2
    exact paletteShows t filled same (fun run there => (ofRuns run.1).mpr (List.mem_map_of_mem there)) many
      (by omega) short
  · exact rawShows t

theorem sendRegionShows (cpu : Machine) (t : Tile f.fb blockSize tile) :
    ∃ data, sendRegion f.stream cpu f.fb (jobOf f.fb tile) = some data ∧ Shows f tile data := by
  have fits := jobFits f.fits t
  have tall := jobTall t (show blockSize.width ≤ 128 by decide)
  obtain ⟨colors,palette,distinct,listed⟩ := paletteOf f.fb cpu fits tall
  have there (p) (has : tile.Has p) : f.fb.source p ∈ colors :=
    (listed _).mpr ⟨_,sourceJob f.fits t has,rfl⟩
  have corner : f.fb.pixel (jobOf f.fb tile).topLeft ∈ colors :=
    (listed _).mpr ⟨_,topLeftHas (jobFilled t),rfl⟩
  have some := List.length_pos_of_mem corner
  rw [sendRegion,palette]
  simp only [bind,Option.bind,List.length_zipIdx]
  by_cases one : colors.length = 1
  · obtain ⟨color,rfl⟩ := List.length_eq_one_iff.mp one
    rw [if_pos one]
    refine solidShows fun p has => ?_
    rw [List.mem_singleton.mp (there p has),List.mem_singleton.mp corner]
  rw [if_neg one]
  by_cases few : colors.length ≤ 16
  · have two : 2 ≤ colors.length := by omega
    rw [if_pos ⟨two,few⟩]
    exact packedShows t there two few
  rw [if_neg fun both => few both.2]
  obtain ⟨rle,makes,expands,filled⟩ := toRLEExpands cpu fits tall
  have among (pix : UInt32) : pix ∈ colors ↔ pix ∈ tile.points.map f.fb.source := by
    rw [listed,← jobPixels f t,pixelsOf,List.mem_map]
    simp only [memPoints]
  rw [makes]
  exact runsShow t filled ((jobPixels f t).symm.trans expands.symm) distinct among (by omega)

end
end Ltsm.Trle
