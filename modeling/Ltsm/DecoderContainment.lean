import Ltsm.SubRectContainment
import Ltsm.TrleUpdates

/-! What a server can make a client draw outside the rectangle it announced. TRLE and
ZRLE only ever set points of the blocks that the rectangle is cut into; so it is the
rectangle that decides, and the stream cannot do more. -/
namespace Ltsm.DecoderContainment
open Library Regions PixelFormats PixelStreams UpdateMessages FrameBuffers CompressedPixels BitStreams TrleTiles Trle
open TrleUpdates DividedRegions SubRectContainment

/-! Every step sets points it was given. -/

section
variable {A : Set Point} {start s : Screen}

theorem setKeeps {p : Point} (inside : p ∈ A) (pixel : UInt32) (kept : KeepsOutside A start s) :
    KeepsOutside A start (setPixel p pixel s) := by
  intro q out
  have other : q ≠ p := by
    rintro rfl
    exact out inside
  rw [setPixel,if_neg other,kept q out]

theorem fillKeeps {reg : Region} (inside : reg.cells ⊆ A) (pixel : UInt32) (kept : KeepsOutside A start s) :
    KeepsOutside A start (fillPixel reg pixel s) := by
  rw [fillPixelCells]
  exact keepsOutsideTrans kept (paintKeeps _ s inside)

theorem fillRunKeeps {pixel : UInt32} {run : Nat} {points left : List Point} {s' : Screen}
    (inside : ∀ p ∈ points, p ∈ A) (kept : KeepsOutside A start s)
    (fills : fillRun pixel run points s = some (left,s')) : (∀ p ∈ left, p ∈ A) ∧ KeepsOutside A start s' := by
  induction run generalizing points s with
  | zero =>
    cases Option.some.inj fills
    exact ⟨inside,kept⟩
  | succ run ih =>
    cases points with
    | nil => cases fills
    | cons p rest =>
      obtain ⟨first,later⟩ := List.forall_mem_cons.mp inside
      exact ih later (setKeeps first pixel kept) fills

theorem unpackKeeps {palette : List UInt32} {field : Nat} {points : List Point} {sb : StreamBits} {s' : Screen}
    (inside : ∀ p ∈ points, p ∈ A) (kept : KeepsOutside A start s)
    (unpacks : unpackLine palette field points sb s = some s') : KeepsOutside A start s' := by
  induction points generalizing sb s with
  | nil =>
    cases Option.some.inj unpacks
    exact kept
  | cons p rest ih =>
    obtain ⟨first,later⟩ := List.forall_mem_cons.mp inside
    obtain ⟨⟨index,sb⟩,_,more⟩ := Option.bind_eq_some_iff.mp unpacks
    obtain ⟨pixel,_,last⟩ := Option.bind_eq_some_iff.mp more
    exact ih later (setKeeps first pixel kept) last

variable (be : Bool) (clientPf : PixelFormat)

theorem rawKeeps {points : List Point} (inside : ∀ p ∈ points, p ∈ A) (kept : KeepsOutside A start s) :
    Yields (recvRaw be clientPf points s) (KeepsOutside A start) := by
  induction points generalizing s with
  | nil => exact yieldsPure kept
  | cons p rest ih =>
    obtain ⟨first,later⟩ := List.forall_mem_cons.mp inside
    exact yieldsBind (yieldsAny _) fun pixel _ => ih later (setKeeps first pixel kept)

theorem linesKeep {palette : List UInt32} {field : Nat} {reg : Region} (rows : List Nat)
    (inside : ∀ py ∈ rows, ∀ p ∈ reg.line py, storedPoint p ∈ A) (kept : KeepsOutside A start s) :
    Yields (recvLines palette field reg rows s) (KeepsOutside A start) := by
  induction rows generalizing s with
  | nil => exact yieldsPure kept
  | cons py rest ih =>
    obtain ⟨first,later⟩ := List.forall_mem_cons.mp inside
    have line : ∀ p ∈ ((reg.line py).map storedPoint).reverse, p ∈ A := by
      simpa only [List.mem_reverse,List.forall_mem_map] using first
    have row : Yields (recvLine palette field reg.width ((reg.line py).map storedPoint) s)
        (KeepsOutside A start) := by
      refine yieldsBind (yieldsAny _) fun bytes _ => yieldsOption fun s' unpacked => ?_
      obtain ⟨sb,_,unpacks⟩ := Option.bind_eq_some_iff.mp unpacked
      exact unpackKeeps line kept unpacks
    exact yieldsBind row fun s' kept' => ih later kept'

theorem plainKeeps {fuel : Nat} {points : List Point} (inside : ∀ p ∈ points, p ∈ A)
    (kept : KeepsOutside A start s) : Yields (recvPlain be clientPf fuel points s) (KeepsOutside A start) := by
  induction fuel generalizing points s with
  | zero =>
    cases points with
    | nil => exact yieldsPure kept
    | cons p rest => exact yieldsFail _
  | succ fuel ih =>
    cases points with
    | nil => exact yieldsPure kept
    | cons p rest =>
      refine yieldsBind (yieldsAny _) fun pixel _ => yieldsBind (yieldsAny _) fun runLength _ => ?_
      exact yieldsBind (yieldsOption fun left fills => fillRunKeeps inside kept fills)
        fun left both => ih both.1 both.2

theorem indicesKeep {palette : List UInt32} {fuel : Nat} {points : List Point} (inside : ∀ p ∈ points, p ∈ A)
    (kept : KeepsOutside A start s) : Yields (recvIndices palette fuel points s) (KeepsOutside A start) := by
  induction fuel generalizing points s with
  | zero =>
    cases points with
    | nil => exact yieldsPure kept
    | cons p rest => exact yieldsFail _
  | succ fuel ih =>
    cases points with
    | nil => exact yieldsPure kept
    | cons p rest =>
      refine yieldsBind (yieldsAny _) fun index _ => yieldsBind (yieldsAny _) fun pixel _ =>
        yieldsBind (yieldsAny _) fun runLength _ => ?_
      exact yieldsBind (yieldsOption fun left fills => fillRunKeeps inside kept fills)
        fun left both => ih both.1 both.2

/- A tile of any kind. -/
theorem tileKeeps {tile : Region} (cells : tile.cells ⊆ A) (points : ∀ p, tile.Has p → storedPoint p ∈ A)
    (kept : KeepsOutside A start s) : Yields (updateSubRegion be clientPf tile s) (KeepsOutside A start) := by
  have inside : ∀ p ∈ tile.points.map storedPoint, p ∈ A :=
    List.forall_mem_map.mpr fun p listed => points p (memPoints.mp listed)
  have lines (py) (row : py ∈ List.range tile.height) (p) (listed : p ∈ tile.line py) : storedPoint p ∈ A :=
    points p (memPoints.mp (List.mem_flatMap.mpr ⟨py,row,listed⟩))
  refine yieldsBind (yieldsAny _) fun type _ => ?_
  split
  · exact rawKeeps be clientPf inside kept
  split
  · exact yieldsBind (yieldsAny _) fun solid _ => yieldsPure (fillKeeps cells solid kept)
  split
  · exact yieldsBind (yieldsAny _) fun palette _ => linesKeep _ lines kept
  split
  · exact yieldsFail _
  split
  · exact yieldsBind (yieldsAny _) fun left _ => plainKeeps be clientPf inside kept
  · exact yieldsBind (yieldsAny _) fun palette _ => yieldsBind (yieldsAny _) fun left _ => indicesKeep inside kept

theorem tilesKeep {blocks : List Region}
    (each : ∀ tile ∈ blocks, ∀ s, KeepsOutside A start s →
      Yields (updateSubRegion be clientPf tile s) (KeepsOutside A start))
    (kept : KeepsOutside A start s) : Yields (updateSubRegions be clientPf blocks s) (KeepsOutside A start) := by
  induction blocks generalizing s with
  | nil => exact yieldsPure kept
  | cons tile rest ih =>
    obtain ⟨first,later⟩ := List.forall_mem_cons.mp each
    exact yieldsBind (first s kept) fun s' kept' => ih later kept'

end

/-! A client whose own pixels cannot be received refuses every tile. -/

def Readable (clientPf : PixelFormat) : Prop := clientPf.bytePerPixel = 4 ∨ clientPf.bytePerPixel = 1
instance (clientPf) : Decidable (Readable clientPf) := by unfold Readable; infer_instance

section
variable {be : Bool} {clientPf : PixelFormat}

theorem unreadableRefuses (unreadable : ¬Readable clientPf) : Yields (recvCPixel be clientPf) fun _ => False := by
  have notFull : clientPf.bitsPixel ≠ 32 := by
    intro full
    exact unreadable (.inl (by rw [PixelFormat.bytePerPixel,full]))
  rw [recvCPixel,if_pos notFull,recvPixel]
  split
  · exact absurd (.inl ‹_›) unreadable
  · exact absurd (.inr ‹_›) unreadable
  · exact yieldsFail _

theorem tileRefused (unreadable : ¬Readable clientPf) {tile : Region} (filled : 0 < tile.width ∧ 0 < tile.height)
    (s : Screen) : Yields (updateSubRegion be clientPf tile s) fun _ => False := by
  have never {α : Type} (f : UInt32 → Reader α) : Yields (recvCPixel be clientPf >>= f) fun _ => False :=
    yieldsBind (unreadableRefuses unreadable) fun _ no => no.elim
  have palette {α : Type} (count : Nat) (f : List UInt32 → Reader α) :
      Yields (recvPalette be clientPf (count + 1) >>= f) fun _ => False :=
    yieldsBind (never _) fun _ no => no.elim
  obtain ⟨p,rest,points⟩ : ∃ p rest, tile.points.map storedPoint = p :: rest := by
    refine List.exists_cons_of_ne_nil fun none => ?_
    have corner := memPoints.mpr (topLeftHas filled)
    rw [List.map_eq_nil_iff.mp none] at corner
    cases corner
  unfold updateSubRegion
  rw [points]
  refine yieldsBind (yieldsAny _) fun type _ => ?_
  split
  · exact never _
  split
  · exact never _
  split
  · obtain ⟨count,rfl⟩ : ∃ count, type = count + 1 := ⟨type - 1,by omega⟩
    exact palette count _
  split
  · exact yieldsFail _
  split
  · refine yieldsBind (yieldsAny _) fun left _ => ?_
    cases left with
    | zero => exact yieldsFail _
    | succ left => exact never _
  · obtain ⟨count,same⟩ : ∃ count, type - 128 = count + 1 := ⟨type - 129,by omega⟩
    rw [same]
    exact palette count _

end

/-! Whole rectangles. -/

section
variable (z : ZLib) (zrle be : Bool) (clientPf : PixelFormat) (header : Region) (zlib : z.Inflate)

/- The screen that comes of it. -/
def screenTRLE (s : Screen) : Reader Screen :=
  updateRegionStream z zrle be clientPf (received header) ⟨s,zlib⟩ >>= fun last => pure last.screen

/- What is received before the rectangle is cut into blocks. -/
def recvBuffer : Reader Unit :=
  if zrle then recvIntBE32 >>= fun len => takeBytes len >>= fun zip =>
    ofOption (z.inflateData zlib zip) >>= fun _ => pure ()
  else pure ()

/- If the cutting begins, it ends; all that follows it takes bytes. -/
def Ends (bytes : Bytes) : Prop :=
  (recvBuffer z zrle zlib).run bytes ≠ none → (received header).divideBlocks ⟨64,64⟩ ≠ none

/- The counters of the cutting come to their ends, and all points can be stored. -/
def Drawable : Prop :=
  header.height = 0 ∨ header.height ≤ 65472 ∧ (header.width = 0 ∨ header.width ≤ 65472 ∧
    (Readable clientPf → header.x + header.width ≤ 32768 ∧ header.y + header.height ≤ 32768))

instance : Decidable (Drawable clientPf header) := by unfold Drawable; infer_instance

end

section
variable {z : ZLib} {zrle be : Bool} {clientPf : PixelFormat} {header : Region} {zlib : z.Inflate}

theorem blocksContained {blocks : List Region} (divides : (received header).divideBlocks ⟨64,64⟩ = some blocks)
    (each : ∀ tile ∈ blocks, ∀ start s, KeepsOutside header.cells start s →
      Yields (updateSubRegion be clientPf tile s) (KeepsOutside header.cells start)) (bytes : Bytes) :
    Contained header (screenTRLE z zrle be clientPf header zlib) bytes := by
  intro s s' rest ran
  have region : Yields (updateRegion be clientPf (received header) s) (KeepsOutside header.cells s) := by
    rw [updateRegion,divides]
    exact tilesKeep be clientPf (fun tile listed => each tile listed s) (keepsOutsideSelf _ s)
  have stream : Yields (updateRegionStream z zrle be clientPf (received header) ⟨s,zlib⟩)
      fun last => KeepsOutside header.cells s last.screen := by
    unfold updateRegionStream
    split
    · refine yieldsBind (yieldsAny _) fun len _ => yieldsBind (yieldsAny _) fun zip _ => yieldsOption ?_
      intro last inflates
      obtain ⟨⟨zlib',buf⟩,_,more⟩ := Option.bind_eq_some_iff.mp inflates
      obtain ⟨⟨screen,left⟩,ran,done⟩ := Option.bind_eq_some_iff.mp more
      cases Option.some.inj done
      exact region buf screen left ran
    · exact yieldsBind region fun screen kept => yieldsPure kept
  exact yieldsBind stream (fun last kept => yieldsPure kept) bytes s' rest ran

theorem axisSmall {length : Nat} (some : 0 < length) :
    length + Nat.gcd (min 64 length) 65536 ≤ 65536 ↔ length ≤ 65472 := by
  by_cases large : 64 ≤ length
  · have step : Nat.gcd (min 64 length) 65536 = 64 := by rw [Nat.min_eq_left large]; decide
    omega
  · have step : min 64 length = length := by omega
    have low := Nat.gcd_le_left 65536 some
    rw [step]
    omega

theorem drawableDivides (h : Announced header) (drawable : Drawable clientPf header) :
    ∃ blocks, (received header).divideBlocks ⟨64,64⟩ = some blocks ∧ ∀ tile ∈ blocks, ∀ start s,
      KeepsOutside header.cells start s →
        Yields (updateSubRegion be clientPf tile s) (KeepsOutside header.cells start) := by
  have nothing (empty : (received header).width = 0 ∨ (received header).height = 0)
      (room : (received header).height + Nat.gcd (min 64 (received header).height) 65536 ≤ 65536) :
      ∃ blocks, (received header).divideBlocks ⟨64,64⟩ = some blocks ∧ blocks = [] := by
    obtain ⟨blocks,divides⟩ := (@emptyReturns (received header) ⟨64,64⟩ empty).mpr room
    exact ⟨blocks,divides,emptyBlocks empty divides⟩
  by_cases flat : header.height = 0
  · obtain ⟨blocks,divides,rfl⟩ := nothing (.inr flat) (by simp [received,flat])
    exact ⟨[],divides,by simp⟩
  obtain ⟨low,narrow | ⟨small,fits⟩⟩ := drawable.resolve_left flat
  · obtain ⟨blocks,divides,rfl⟩ := nothing (.inl narrow) ((axisSmall (Nat.pos_of_ne_zero flat)).mpr low)
    exact ⟨[],divides,by simp⟩
  by_cases narrow : header.width = 0
  · obtain ⟨blocks,divides,rfl⟩ := nothing (.inl narrow) ((axisSmall (Nat.pos_of_ne_zero flat)).mpr low)
    exact ⟨[],divides,by simp⟩
  by_cases readable : Readable clientPf
  · obtain ⟨right,bottom⟩ := fits readable
    have whole : header.Fits := ⟨h.left.1,h.top.1,right,bottom⟩
    have same := receivedSame h ⟨by omega,by omega⟩
    rw [same]
    obtain ⟨blocks,divides,tiles,_⟩ := divisibleTiles (divisible whole ⟨64,64⟩) (by decide) (by decide)
    refine ⟨blocks,divides,fun tile listed start s kept => ?_⟩
    have within := tiles.within tile listed
    refine tileKeeps be clientPf (fun p has => withinHas within has) (fun p has => ?_) kept
    obtain ⟨left,top,right,bottom⟩ := withinFits within whole
    have stored : storedPoint p = p := by
      obtain ⟨a,b,c,d⟩ := has
      rw [storedPoint,toInt16Fits (by omega) (by omega),toInt16Fits (by omega) (by omega)]
    rw [stored]
    exact withinHas within has
  · obtain ⟨rows,down⟩ := axisEndsIff.mpr ((axisSmall (Nat.pos_of_ne_zero flat)).mpr low)
    obtain ⟨cols,across⟩ := axisEndsIff.mpr ((axisSmall (Nat.pos_of_ne_zero narrow)).mpr small)
    refine ⟨_,divideReturns (r := received header) down across,fun tile listed start s kept => ?_⟩
    obtain ⟨row,inRows,inRow⟩ := List.mem_flatMap.mp listed
    obtain ⟨col,inCols,rfl⟩ := List.mem_map.mp inRow
    have wide := (axisFilled (by omega) across inCols).2.1
    have high := (axisFilled (by omega) down inRows).2.1
    exact fun bytes s' rest ran => (tileRefused readable ⟨wide,high⟩ s bytes s' rest ran).elim

end

/-! A stream that sets every point of every block, in one run each. -/

def runTile (word : Bytes) (tile : Region) : Bytes := sendInt8 128 ++ (word ++ runLengthBytes tile.area)

def tilePoints (tile : Region) : Set Point := among (tile.points.map storedPoint)

section
variable {be : Bool} {clientPf : PixelFormat} {word : Bytes} {pixel : UInt32}

/- Some word of a pixel can be received. -/
theorem readableReads (readable : Readable clientPf) :
    ∃ word pixel, word.length ≤ 4 ∧ Reads (recvCPixel be clientPf) word pixel := by
  have zeros (count : Nat) : Reads (takeBytes count) (List.replicate count 0) (List.replicate count 0) := by
    have taken := readsTake (List.replicate count (0 : UInt8))
    rwa [List.length_replicate] at taken
  by_cases full : clientPf.bitsPixel = 32
  · have last : recvCPixel be clientPf = takeBytes 3 >>= fun bytes => pure (ofWordBytes be
        (List.replicate (cpixelOffset be clientPf.leastSignificant) 0 ++ bytes ++
          List.replicate (1 - cpixelOffset be clientPf.leastSignificant) 0)) := if_neg (not_not.mpr full)
    exact ⟨List.replicate 3 0,_,by simp,last ▸ readsMap (zeros 3) _⟩
  · rw [recvCPixel,if_pos full,recvPixel]
    obtain four | one := readable
    · rw [four]
      exact ⟨List.replicate 4 0,_,by simp,readsMap (zeros 4) _⟩
    · rw [one]
      exact ⟨sendInt8 0,_,by simp [sendInt8],readsMap (readsInt8 0) _⟩

theorem runTilePaints (reads : Reads (recvCPixel be clientPf) word pixel) {tile : Region}
    (filled : 0 < tile.width ∧ 0 < tile.height) (small : tile.width ≤ 64 ∧ tile.height ≤ 64) (s : Screen) :
    Reads (updateSubRegion be clientPf tile s) (runTile word tile) (paint (fun _ => pixel) (tilePoints tile) s) := by
  have area : tile.area ≤ 4096 := Nat.mul_le_mul small.1 small.2
  have positive := filledArea filled
  have count : (tile.points.map storedPoint).length = tile.area := by
    rw [List.length_map,lengthPoints]
  have fills := @fillRunPaints (fun _ => pixel) pixel (tile.points.map storedPoint) [] (fun _ _ => rfl) s
  rw [count,List.append_nil] at fills
  refine readsBind (readsInt8 128) (readsRemaining fun left enough => ?_)
  obtain ⟨p,rest,points⟩ := List.exists_cons_of_length_pos (count ▸ positive : 0 < (tile.points.map storedPoint).length)
  have run : Reads (runLengthFrom 0) (runLengthBytes tile.area) tile.area := readsRunLength positive (by omega)
  have some := lengthRunLength positive
  rw [List.length_append] at enough
  obtain ⟨left,rfl⟩ : ∃ before, left = before + 1 := ⟨left - 1,by omega⟩
  have step : recvPlain be clientPf (left + 1) (tile.points.map storedPoint) s =
      recvCPixel be clientPf >>= fun pixel => recvRunLength >>= fun runLength =>
        ofOption (fillRun pixel runLength (tile.points.map storedPoint) s) >>= fun last =>
          recvPlain be clientPf left last.1 last.2 := by
    rw [points]
    rfl
  rw [step,← List.append_nil (runLengthBytes tile.area)]
  refine readsBind reads (readsBind run ?_)
  rw [fills]
  cases left <;> exact readsPure _

theorem runTilesPaint (reads : Reads (recvCPixel be clientPf) word pixel) {blocks : List Region}
    (tiles : ∀ tile ∈ blocks, (0 < tile.width ∧ 0 < tile.height) ∧ tile.width ≤ 64 ∧ tile.height ≤ 64) (s : Screen) :
    Reads (updateSubRegions be clientPf blocks s) (blocks.flatMap (runTile word))
      (paint (fun _ => pixel) (covered tilePoints blocks) s) := by
  induction blocks generalizing s with
  | nil =>
    rw [coveredNil,paintNothing]
    exact readsPure s
  | cons tile rest ih =>
    obtain ⟨⟨filled,small⟩,later⟩ := List.forall_mem_cons.mp tiles
    rw [List.flatMap_cons,← paintCovered]
    exact readsBind (runTilePaints reads filled small s) (ih later _)

theorem lengthRunTiles (short : word.length ≤ 4) {blocks : List Region}
    (tiles : ∀ tile ∈ blocks, (0 < tile.width ∧ 0 < tile.height) ∧ tile.width ≤ 64 ∧ tile.height ≤ 64) :
    (blocks.flatMap (runTile word)).length ≤ 22 * blocks.length := by
  induction blocks with
  | nil => exact Nat.le_refl 0
  | cons tile rest ih =>
    obtain ⟨⟨filled,small⟩,later⟩ := List.forall_mem_cons.mp tiles
    have area : tile.area ≤ 4096 := Nat.mul_le_mul small.1 small.2
    have run := lengthRunLength (filledArea filled)
    have more := ih later
    rw [List.flatMap_cons,List.length_append,runTile,List.length_append,List.length_append,run,List.length_cons]
    simp only [sendInt8,List.length_singleton]
    omega

end

/-! The blocks of an axis of at most 65472 points. -/

theorem axisTiles {length : Nat} (some : 0 < length) (low : length ≤ 65472) :
    ∃ blocks, Region.axisBlocks (min 64 length) length 65536 0 = .some blocks ∧ Spans 0 blocks length ∧
      (∀ block ∈ blocks, block.2 ≤ 64) ∧ blocks.length ≤ 1024 := by
  have positive : 0 < min 64 length := lt_min (by decide) some
  have whole : blockCount (min 64 length) length * min 64 length ≤ length + min 64 length - 1 :=
    Nat.div_mul_le_self _ _
  have few : blockCount (min 64 length) length ≤ 1024 := by
    by_cases large : 64 ≤ length
    · rw [Nat.min_eq_left large] at whole ⊢
      omega
    · have step : min 64 length = length := by omega
      rw [step] at whole ⊢
      by_contra many
      have more : 1025 * length ≤ blockCount length length * length := Nat.mul_le_mul_right length (by omega)
      omega
  obtain ⟨blocks,returns,spans,narrow,count⟩ := @axisSpans (min 64 length) length 65536 0 positive
    (Nat.min_le_right _ _) (by rw [Nat.sub_zero,Nat.zero_add]; omega) (by omega)
  rw [Nat.zero_min] at spans
  rw [Nat.sub_zero] at count
  exact ⟨blocks,returns,spans,fun block listed => ((narrow block listed).1).trans (Nat.min_le_left _ _),
    count.trans_le few⟩

section
variable {z : ZLib} {InStep : z.Deflate → z.Inflate → Prop} {zrle be : Bool} {clientPf : PixelFormat}
variable {header : Region} {blocks : List Region}

/- Every point of the rectangle is stored somewhere. -/
theorem blocksSet (wide : 0 < header.width ∧ header.width ≤ 65472) (high : 0 < header.height ∧ header.height ≤ 65472) :
    ∃ blocks, (received header).divideBlocks ⟨64,64⟩ = some blocks ∧ blocks.length ≤ 1048576 ∧
      (∀ tile ∈ blocks, (0 < tile.width ∧ 0 < tile.height) ∧ tile.width ≤ 64 ∧ tile.height ≤ 64) ∧
      ∀ px < header.width, ∀ py < header.height,
        ⟨toInt16 (header.x + px),toInt16 (header.y + py)⟩ ∈ covered tilePoints blocks := by
  obtain ⟨rows,down,rowSpans,rowsSmall,rowsFew⟩ := axisTiles high.1 high.2
  obtain ⟨cols,across,colSpans,colsSmall,colsFew⟩ := axisTiles wide.1 wide.2
  refine ⟨_,divideReturns (r := received header) down across,?_,fun tile listed => ?_,?_⟩
  · have total : rows.length * cols.length ≤ 1024 * 1024 := Nat.mul_le_mul rowsFew colsFew
    simpa [List.length_flatMap] using total
  · obtain ⟨row,inRows,inRow⟩ := List.mem_flatMap.mp listed
    obtain ⟨col,inCols,rfl⟩ := List.mem_map.mp inRow
    exact ⟨⟨(spansInside colSpans inCols).2.1,(spansInside rowSpans inRows).2.1⟩,colsSmall col inCols,rowsSmall row inRows⟩
  · intro px right py bottom
    obtain ⟨col,inCols,colLow,colHigh⟩ := spansCover colSpans (Nat.zero_le px) right
    obtain ⟨row,inRows,rowLow,rowHigh⟩ := spansCover rowSpans (Nat.zero_le py) bottom
    have again (value : Int) (first n : Nat) (behind : first ≤ n) :
        toInt16 (toInt16 (toInt16 value + first) + (n - first : Nat)) = toInt16 (value + n) := by
      have sum : value + first + (n - first : Nat) = value + n := by omega
      simp only [toInt16,Int.bmod_add_bmod]
      rw [sum]
    refine ⟨_,List.mem_flatMap.mpr ⟨row,inRows,List.mem_map.mpr ⟨col,inCols,rfl⟩⟩,List.mem_map.mpr
      ⟨⟨toInt16 (toInt16 header.x + col.1) + (px - col.1 : Nat),
        toInt16 (toInt16 header.y + row.1) + (py - row.1 : Nat)⟩,memPoints.mpr ?_,?_⟩⟩
    · simp only [Region.Has,received]
      omega
    · rw [storedPoint,again _ _ _ colLow,again _ _ _ rowLow]

/- All those points are inside only if none of them wraps around. -/
theorem setInside (h : Announced header) (wide : 0 < header.width) (high : 0 < header.height)
    (set : ∀ px < header.width, ∀ py < header.height,
      header.Has ⟨toInt16 (header.x + px),toInt16 (header.y + py)⟩) :
    header.x + header.width ≤ 32768 ∧ header.y + header.height ≤ 32768 := by
  obtain ⟨left,_,top,_⟩ := set 0 wide 0 high
  obtain ⟨right,_,bottom,_⟩ := set (header.width - 1) (by omega) (header.height - 1) (by omega)
  obtain ⟨⟨leftLow,_⟩,⟨topLow,_⟩,narrow,short⟩ := h
  have across := (toInt16Range (header.x + (0 : Nat))).2
  have down := (toInt16Range (header.y + (0 : Nat))).2
  simp only at left top right bottom
  have storedX : toInt16 header.x = header.x := toInt16Fits (by omega) (by omega)
  have storedY : toInt16 header.y = header.y := toInt16Fits (by omega) (by omega)
  have lastX := (behindIff storedX (by omega)).mp right
  have lastY := (behindIff storedY (by omega)).mp bottom
  omega

/- A stream that comes to all blocks. -/
theorem streamPaints (lossless : z.Lossless InStep) (readable : Readable clientPf)
    (divides : (received header).divideBlocks ⟨64,64⟩ = some blocks) (some : blocks ≠ [])
    (few : blocks.length ≤ 1048576)
    (tiles : ∀ tile ∈ blocks, (0 < tile.width ∧ 0 < tile.height) ∧ tile.width ≤ 64 ∧ tile.height ≤ 64) :
    ∃ bytes pixel, ∀ s, Reads (screenTRLE z zrle be clientPf header z.inflateInit s) bytes
      (paint (fun _ => pixel) (covered tilePoints blocks) s) := by
  obtain ⟨word,pixel,short,reads⟩ := @readableReads be clientPf readable
  have region (s : Screen) : Reads (updateRegion be clientPf (received header) s) (blocks.flatMap (runTile word))
      (paint (fun _ => pixel) (covered tilePoints blocks) s) := by
    rw [updateRegion,divides]
    exact readsBind (readsOption blocks) (runTilesPaint reads tiles s)
  cases zrle with
  | false => exact ⟨_,pixel,fun s => readsMap (readsMap (region s) _) Decoding.screen⟩
  | true =>
    have begins (tile) (_ : tile ∈ blocks) : runTile word tile ≠ [] := List.cons_ne_nil _ _
    have filled : blocks.flatMap (runTile word) ≠ [] := (flatMapFilled begins).not.mpr some
    have length := lengthRunTiles short tiles
    refine ⟨sendIntBE32 (z.deflateData z.deflateInit (blocks.flatMap (runTile word))).2.length ++
      (z.deflateData z.deflateInit (blocks.flatMap (runTile word))).2,pixel,fun s => ?_⟩
    obtain ⟨next,_,zipped⟩ := readsZipped lossless (s := ⟨s,z.inflateInit⟩) (region s) filled (by omega) lossless.start
    exact readsMap zipped Decoding.screen

theorem blocksContainedIff (h : Announced header) (lossless : z.Lossless InStep) :
    (∀ zlib bytes, Ends z zrle header zlib bytes ∧
      Contained header (screenTRLE z zrle be clientPf header zlib) bytes) ↔ Drawable clientPf header := by
  constructor
  · intro all
    by_cases flat : header.height = 0
    · exact .inl flat
    have high := Nat.pos_of_ne_zero flat
    obtain ⟨blocks,divides⟩ : ∃ blocks, (received header).divideBlocks ⟨64,64⟩ = some blocks := by
      refine Option.ne_none_iff_exists'.mp ((all z.inflateInit (sendIntBE32 0)).1 ?_)
      cases zrle with
      | false => exact Option.some_ne_none _
      | true => exact Option.some_ne_none _
    by_cases narrow : header.width = 0
    · have ends := (@emptyReturns (received header) ⟨64,64⟩ (.inl narrow)).mp ⟨blocks,divides⟩
      exact .inr ⟨(axisSmall high).mp ends,.inl narrow⟩
    have wide := Nat.pos_of_ne_zero narrow
    obtain ⟨rows,cols,down,across,_⟩ := dividedInto divides high
    have low := (axisSmall high).mp (axisEndsIff.mp ⟨rows,down⟩)
    have small := (axisSmall wide).mp (axisEndsIff.mp ⟨cols,across⟩)
    refine .inr ⟨low,.inr ⟨small,fun readable => ?_⟩⟩
    obtain ⟨blocks',divides',few,tiles,set⟩ := @blocksSet header ⟨wide,small⟩ ⟨high,low⟩
    have some : blocks' ≠ [] := by
      rintro rfl
      obtain ⟨_,listed,_⟩ := set 0 wide 0 high
      cases listed
    obtain ⟨bytes,pixel,paints⟩ := @streamPaints z InStep zrle be clientPf header _ lossless readable divides' some few tiles
    have inside : covered tilePoints blocks' ⊆ header.cells := by
      refine (paintKeepsIff fun _ => pixel).mp fun s => ?_
      have ran := paints s []
      exact (all z.inflateInit (bytes ++ [])).2 s _ _ ran
    exact setInside h wide high fun px right py bottom => inside (set px right py bottom)
  · intro drawable zlib bytes
    obtain ⟨blocks,divides,each⟩ := drawableDivides h drawable
    refine ⟨fun _ => ?_,blocksContained divides each bytes⟩
    rw [divides]
    exact Option.some_ne_none _

end

theorem containedIff (header : Region) (h : Announced header) (be : Bool) (clientPf : PixelFormat) (z : ZLib)
    (InStep : z.Deflate → z.Inflate → Prop) (lossless : z.Lossless InStep) :
    (∀ corre bytes, Contained header (Rre.decodeRRE corre be clientPf (received header)) bytes ↔
      KeepsSubRects header (drawingRRE corre be clientPf) bytes) ∧
    (∀ bgColor fgColor bytes, Contained header (screenHexTile be clientPf bgColor fgColor (received header)) bytes ↔
      KeepsSubRects header (drawingHexTile be clientPf bgColor fgColor (received header)) bytes) ∧
    ∀ zrle, (∀ zlib bytes, Ends z zrle header zlib bytes ∧
      Contained header (screenTRLE z zrle be clientPf header zlib) bytes) ↔ Drawable clientPf header :=
  ⟨fun corre => drawnContained h (smallRRE corre be clientPf) (drawsRRE corre be clientPf _),
    fun bgColor fgColor => drawnContained h (smallHexTile be clientPf bgColor fgColor _)
      (drawsHexTile be clientPf bgColor fgColor _),
    fun _ => blocksContainedIff h lossless⟩

theorem containedScreen : (∀ zlib bytes, Ends recorded true ⟨0,0,640,480⟩ zlib bytes ∧
      Contained ⟨0,0,640,480⟩ (screenTRLE recorded true false clientRGBX32 ⟨0,0,640,480⟩ zlib) bytes) ∧
    ∀ corre bytes, KeepsSubRects ⟨0,0,640,480⟩ (drawingRRE corre false clientRGBX32) bytes →
      Contained ⟨0,0,640,480⟩ (Rre.decodeRRE corre false clientRGBX32 ⟨0,0,640,480⟩) bytes := by
  have all := containedIff ⟨0,0,640,480⟩ (by decide) false clientRGBX32 recorded _ recordedLossless
  exact ⟨(all.2.2 true).mpr (by decide),fun corre bytes => (all.1 corre bytes).mpr⟩

/- One sub-rectangle of one point, a column to the left of the rectangle. -/
def leftOfIt : Bytes :=
  [0,0,0,1, 0x01,0,0,0, 0x02,0,0,0, 0xFF,0xFF, 0,0, 0,1, 0,1]

theorem leftDrawn :
    ((Rre.decodeRRE false false clientRGBX32 ⟨100,50,16,16⟩ fun _ => 0).run leftOfIt).map (fun out => out.1 ⟨99,50⟩) =
      some 2 ∧
    ¬∀ header, Announced header → ∀ be clientPf bytes,
      (∀ corre, Contained header (Rre.decodeRRE corre be clientPf (received header)) bytes) ∧
      (∀ bgColor fgColor, Contained header (screenHexTile be clientPf bgColor fgColor (received header)) bytes) ∧
      ∀ (z : ZLib) zrle zlib, Ends z zrle header zlib bytes ∧
        Contained header (screenTRLE z zrle be clientPf header zlib) bytes := by
  have drawn : ((Rre.decodeRRE false false clientRGBX32 ⟨100,50,16,16⟩ fun _ => 0).run leftOfIt).map
      (fun out => out.1 ⟨99,50⟩) = some 2 := by decide +kernel
  refine ⟨drawn,fun all => ?_⟩
  obtain ⟨⟨s',rest⟩,ran,pixel⟩ := Option.map_eq_some_iff.mp drawn
  have same := (all ⟨100,50,16,16⟩ (by decide) false clientRGBX32 leftOfIt).1 false _ s' rest ran ⟨99,50⟩
    (show ¬(⟨100,50,16,16⟩ : Region).Has ⟨99,50⟩ by decide)
  have two : s' ⟨99,50⟩ = 2 := pixel
  cases same.symm.trans two

end Ltsm.DecoderContainment
