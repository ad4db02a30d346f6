import Ltsm.HexTile
import Ltsm.Rre
import Ltsm.TrleUpdates

/-! The encodings of the framebuffer as pairs of an encoder and a decoder, each with what its own round
trip grants: an update of a region is read to its last byte and shows the picture there. -/
namespace Ltsm.UpdateCodecs
open Library Regions PixelFormats PixelStreams UpdateMessages FrameBuffers CompressedPixels

/- A format and a byte order for both ends. -/
structure Link where
  format : PixelFormat
  bits : format.bitsPixel = 32
  be : Bool

/- What is on the screen, as a frame of its own corner. -/
def Link.frame (link : Link) (content : Screen) (reg : Region) (fits : reg.Fits) : SharedFrame where
  fb := ⟨reg,link.format,fun p => content ⟨p.x + reg.x,p.y + reg.y⟩⟩
  bits := link.bits
  fits := fits
  be := link.be
  displaySize := reg.toSize

theorem frameSource (link : Link) (content : Screen) (reg : Region) (fits : reg.Fits) :
    (link.frame content reg fits).fb.source = content := by
  funext p
  simp [FrameBuffer.source,Link.frame]

/- Blocks of this side are not too many for the count. -/
def FewBlocks (side : Nat) (sz : Size) : Prop := blockCount side sz.width * blockCount side sz.height < 65536
instance (side sz) : Decidable (FewBlocks side sz) := by unfold FewBlocks; infer_instance

theorem fewSmaller {side : Nat} {sz whole : Size} (wide : sz.width ≤ whole.width) (high : sz.height ≤ whole.height)
    (few : FewBlocks side whole) : FewBlocks side sz := by
  refine lt_of_le_of_lt (Nat.mul_le_mul ?_ ?_) few
  · exact Nat.div_le_div_right (by omega)
  · exact Nat.div_le_div_right (by omega)

/- What the two ends keep between updates is in step, and `kept` is what of a pixel arrives. -/
structure Codec (link : Link) where
  Server : Type
  Client : Type
  view : Client → Screen
  InStep : Server → Client → Prop
  kept : UInt32 → UInt32
  side : Nat
  encode : Server → SharedFrame → Option (Server × List Rect)
  decode : Nat → Region → Client → Reader Client
  shows : ∀ content reg (fits : reg.Fits) s c, FewBlocks side reg.toSize → InStep s c →
    ∃ s' rects, encode s (link.frame content reg fits) = some (s',rects) ∧ rects.length < 65536 ∧
      ∃ c', Reads (recvRects decode rects.length c) (rects.flatMap Rect.bytes) c' ∧ InStep s' c' ∧
        view c' = paint (fun p => kept (content p)) reg.cells (view c)

section
variable {link : Link}

theorem rectsFew {f : SharedFrame} {side : Nat} {rects : List Rect} (few : FewBlocks side f.fb.region.toSize)
    (tiles : Tiles f.fb.region ⟨side,side⟩ (rects.map Rect.region)) : rects.length < 65536 := by
  have counts := tiles.counts
  rw [List.length_map] at counts
  rw [counts]
  exact few

theorem rreShows (corre : Bool) (cpu : Machine) (f : SharedFrame) (s : Screen)
    (few : FewBlocks (if corre then 64 else 128) f.fb.region.toSize) :
    ∃ rects, Rre.sendFrameBuffer f.stream corre cpu f.fb = some rects ∧ rects.length < 65536 ∧
      Reads (recvRects (fun _ => Rre.decodeRRE corre f.be f.fb.format) rects.length s) (rects.flatMap Rect.bytes)
        (paint f.fb.source f.fb.region.cells s) := by
  have size : Rre.blockSize corre = ⟨if corre then 64 else 128,if corre then 64 else 128⟩ := by cases corre <;> rfl
  have positive : 0 < (Rre.blockSize corre).width ∧ 0 < (Rre.blockSize corre).height := by cases corre <;> decide
  obtain ⟨rects,sends,_,tiles,each⟩ := sendTilesRects f.fits positive.1 positive.2
    fun tile (t : Tile f.fb (Rre.blockSize corre) tile) => (Rre.sendRegionReads cpu t).imp fun _ both => both.1
  have restores (rect) (listed : rect ∈ rects) (s : Screen) :
      ∃ s', Reads (Rre.decodeRRE corre f.be f.fb.format rect.region s) rect.data s' ∧
        s' = paint f.fb.source rect.region.cells s := by
    obtain ⟨_,t,sent⟩ := each rect listed
    obtain ⟨data,sent',reads⟩ := Rre.sendRegionReads cpu t
    cases Option.some.inj (sent.symm.trans sent')
    exact ⟨_,reads s,rfl⟩
  obtain ⟨last,reads,rfl⟩ := readsTiles f.fits tiles each id restores s
  exact ⟨rects,sends,rectsFew few (size ▸ tiles),reads⟩

theorem hextileShows (cpu : Machine) (f : SharedFrame) (s : HexTile.Decoding) (few : FewBlocks 16 f.fb.region.toSize) :
    ∃ rects, HexTile.sendFrameBuffer f.stream cpu f.fb = some rects ∧ rects.length < 65536 ∧
      ∃ s', Reads (recvRects (fun _ => HexTile.decodeHexTile f.be f.fb.format) rects.length s)
        (rects.flatMap Rect.bytes) s' ∧ s'.screen = paint f.fb.source f.fb.region.cells s.screen := by
  obtain ⟨rects,sends,_,tiles,each⟩ := sendTilesRects f.fits (by decide) (by decide)
    fun tile (t : Tile f.fb HexTile.blockSize tile) => (HexTile.sendRegionShows cpu t).imp fun _ both => both.1
  have shows (rect) (listed : rect ∈ rects) : HexTile.Shows f rect.region rect.data := by
    obtain ⟨_,t,sent⟩ := each rect listed
    obtain ⟨data,sent',shown⟩ := HexTile.sendRegionShows cpu t
    cases Option.some.inj (sent.symm.trans sent')
    exact shown
  exact ⟨rects,sends,rectsFew few tiles,readsTiles f.fits tiles each HexTile.Decoding.screen shows s⟩

theorem jobsLength (z : TrleUpdates.ZLib) (zrle : Bool) (zs : z.Deflate) (jobs : List Rect) :
    (TrleUpdates.sendJobs z zrle zs jobs).2.length = jobs.length := by
  induction jobs generalizing zs with
  | nil => rfl
  | cons job jobs ih => exact congrArg Nat.succ (ih _)

theorem trleShows {z : TrleUpdates.ZLib} {InStep : z.Deflate → z.Inflate → Prop} (h : z.Lossless InStep) (zrle : Bool)
    (cpu : Machine) (f : SharedFrame) {zs : z.Deflate} {s : TrleUpdates.Decoding z} (step : InStep zs s.zlib)
    (few : FewBlocks 64 f.fb.region.toSize) :
    ∃ last rects, TrleUpdates.sendFrameBuffer z zrle f.stream cpu f.fb zs = some (last,rects) ∧ rects.length < 65536 ∧
      ∃ s', Reads (recvRects (TrleUpdates.recvDecodingUpdateRegion z f.be f.fb.format) rects.length s)
        (rects.flatMap Rect.bytes) s' ∧ InStep last s'.zlib ∧
          s'.screen = paint (Trle.shown f) f.fb.region.cells s.screen := by
  obtain ⟨last,rects,sends,each⟩ := TrleUpdates.readsFrame h zrle cpu f step
  obtain ⟨next,after,reads⟩ := each s.screen
  refine ⟨last,rects,sends,?_,_,reads,after,rfl⟩
  obtain ⟨jobs,cut,_,tiles,_⟩ := @sendTilesRects f.fb Trle.blockSize (if zrle then .zrle else .trle) _ f.fits
    (by decide) (by decide) fun tile (t : Tile f.fb Trle.blockSize tile) =>
      (Trle.sendRegionShows cpu t).imp fun _ both => both.1
  have made := sends.symm.trans (show TrleUpdates.sendFrameBuffer z zrle f.stream cpu f.fb zs = _ by
    rw [TrleUpdates.sendFrameBuffer,cut])
  have same : rects = (TrleUpdates.sendJobs z zrle zs jobs).2 := congrArg Prod.snd (Option.some.inj made)
  rw [same,jobsLength]
  exact rectsFew few tiles

end

/- The encodings of one codec each. -/
inductive Choice
  | rre
  | corre
  | hextile
  | trle
  | zrle
  deriving DecidableEq, Repr

def rreCodec (link : Link) (corre : Bool) (cpu : Machine) : Codec link where
  Server := Unit
  Client := Screen
  view := id
  InStep := fun _ _ => True
  kept := id
  side := if corre then 64 else 128
  encode := fun _ f => (Rre.sendFrameBuffer f.stream corre cpu f.fb).map ((),·)
  decode := fun _ => Rre.decodeRRE corre link.be link.format
  shows := by
    intro content reg fits s c few _
    obtain ⟨rects,sends,short,reads⟩ := rreShows corre cpu (link.frame content reg fits) c few
    rw [frameSource] at reads
    exact ⟨(),rects,by rw [sends]; rfl,short,_,reads,trivial,rfl⟩

def hextileCodec (link : Link) (cpu : Machine) : Codec link where
  Server := Unit
  Client := HexTile.Decoding
  view := HexTile.Decoding.screen
  InStep := fun _ _ => True
  kept := id
  side := 16
  encode := fun _ f => (HexTile.sendFrameBuffer f.stream cpu f.fb).map ((),·)
  decode := fun _ => HexTile.decodeHexTile link.be link.format
  shows := by
    intro content reg fits s c few _
    obtain ⟨rects,sends,short,c',reads,screen⟩ := hextileShows cpu (link.frame content reg fits) c few
    rw [frameSource] at screen
    exact ⟨(),rects,by rw [sends]; rfl,short,c',reads,trivial,screen⟩

def trleCodec (link : Link) {z : TrleUpdates.ZLib} {InStep : z.Deflate → z.Inflate → Prop} (h : z.Lossless InStep)
    (zrle : Bool) (cpu : Machine) : Codec link where
  Server := z.Deflate
  Client := TrleUpdates.Decoding z
  view := TrleUpdates.Decoding.screen
  InStep := fun zs s => InStep zs s.zlib
  kept := keptPixel link.format
  side := 64
  encode := fun zs f => TrleUpdates.sendFrameBuffer z zrle f.stream cpu f.fb zs
  decode := TrleUpdates.recvDecodingUpdateRegion z link.be link.format
  shows := by
    intro content reg fits zs c few step
    obtain ⟨last,rects,sends,short,c',reads,after,screen⟩ := trleShows h zrle cpu (link.frame content reg fits) step few
    have shown : Trle.shown (link.frame content reg fits) = fun p => keptPixel link.format (content p) := by
      funext p
      rw [Trle.shown,frameSource]
      rfl
    rw [shown] at screen
    exact ⟨last,rects,sends,short,c',reads,after,screen⟩

def codec (link : Link) {z : TrleUpdates.ZLib} {InStep : z.Deflate → z.Inflate → Prop} (h : z.Lossless InStep)
    (cpu : Machine) : Choice → Codec link
  | .rre => rreCodec link false cpu
  | .corre => rreCodec link true cpu
  | .hextile => hextileCodec link cpu
  | .trle => trleCodec link h false cpu
  | .zrle => trleCodec link h true cpu

end Ltsm.UpdateCodecs
