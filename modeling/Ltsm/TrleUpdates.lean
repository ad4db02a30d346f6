import Ltsm.Trle

/-! Whole TRLE and ZRLE updates. For ZRLE the bytes of each tile go through a zlib
stream that lasts from update to update, on both sides. -/
namespace Ltsm.TrleUpdates
open Library Regions PixelFormats PixelStreams UpdateMessages FrameBuffers CompressedPixels TrleTiles Trle

/- zlib's two streams, flushed after each call. -/
structure ZLib where
  Deflate : Type
  Inflate : Type
  deflateInit : Deflate
  inflateInit : Inflate
  deflate : Deflate → Bytes → Deflate × Bytes
  inflate : Inflate → Bytes → Option (Inflate × Bytes)

namespace ZLib
variable (z : ZLib)

def deflateData (zs : z.Deflate) (cont : Bytes) : z.Deflate × Bytes :=
  if cont.isEmpty then (zs,[]) else z.deflate zs cont

def inflateData (zs : z.Inflate) (cont : Bytes) : Option (z.Inflate × Bytes) :=
  if cont.isEmpty then some (zs,[]) else z.inflate zs cont

/- The streams stay in step while everything that comes out of the one goes into the
other; what is deflated then inflates to itself. -/
structure Lossless (InStep : z.Deflate → z.Inflate → Prop) : Prop where
  start : InStep z.deflateInit z.inflateInit
  flushed : ∀ zs data, data ≠ [] → (z.deflate zs data).2 ≠ []
  bound : ∀ zs data, (z.deflate zs data).2.length ≤ 2 * data.length + 64
  restores : ∀ zs other data, InStep zs other →
    ∃ next, z.inflate other (z.deflate zs data).2 = some (next,data) ∧ InStep (z.deflate zs data).1 next

end ZLib

section
variable (z : ZLib) (zrle : Bool)

def sendJobs : z.Deflate → List Rect → z.Deflate × List Rect
  | zs, [] => (zs,[])
  | zs, job :: rest =>
    let sent : z.Deflate × Bytes :=
      if zrle then
        let zip := z.deflateData zs job.data
        (zip.1,sendIntBE32 zip.2.length ++ zip.2)
      else (zs,job.data)
    let later := sendJobs sent.1 rest
    (later.1,{job with data := sent.2} :: later.2)

def sendFrameBuffer (st : EncoderStream) (cpu : Machine) (fb : FrameBuffer) (zs : z.Deflate) :
    Option (z.Deflate × List Rect) := do
  let jobs ← fb.sendTiles (if zrle then .zrle else .trle) blockSize (sendRegion st cpu fb)
  some (sendJobs z zrle zs jobs)

structure Decoding where
  screen : Screen
  zlib : z.Inflate

/- The inflated bytes are read like the stream; what is left of them is dropped. -/
def inflateRegion (be : Bool) (clientPf : PixelFormat) (reg : Region) (s : Decoding z) (zip : Bytes) :
    Option (Decoding z) := do
  let (zlib,buf) ← z.inflateData s.zlib zip
  let (screen,_) ← (updateRegion be clientPf reg s.screen).run buf
  some ⟨screen,zlib⟩

def updateRegionStream (be : Bool) (clientPf : PixelFormat) (reg : Region) (s : Decoding z) :
    Reader (Decoding z) :=
  if zrle then recvIntBE32 >>= fun len => takeBytes len >>= fun zip =>
    ofOption (inflateRegion z be clientPf reg s zip)
  else updateRegion be clientPf reg s.screen >>= fun screen => pure {s with screen}

def recvDecodingUpdateRegion (be : Bool) (clientPf : PixelFormat) (type : Nat) (reg : Region)
    (s : Decoding z) : Reader (Decoding z) :=
  if type = Encoding.trle.code then updateRegionStream z false be clientPf reg s
  else if type = Encoding.zrle.code then updateRegionStream z true be clientPf reg s
  else fail

end

/- A tile is one block for the decoder too. -/
theorem readsRegion {f : SharedFrame} {tile : Region} {data : Bytes} (t : Tile f.fb blockSize tile)
    (shows : Shows f tile data) (s : Screen) :
    Reads (updateRegion f.be f.fb.format tile s) data (paint (shown f) tile.cells s) := by
  have fits := withinFits t.within f.fits
  have one : tile.divideBlocks ⟨64,64⟩ = some [tile] := divideSelf fits t.filled t.narrow
  rw [updateRegion,one]
  have rest : Reads (updateSubRegions f.be f.fb.format [tile] s) data (paint (shown f) tile.cells s) := by
    rw [← List.append_nil data]
    exact readsBind (shows.reads s) (readsPure _)
  exact readsBind (readsOption _) rest

section
variable {z : ZLib} {InStep : z.Deflate → z.Inflate → Prop} {f : SharedFrame}

/- What can be read of the blocks can be read of them zipped. -/
theorem readsZipped (h : z.Lossless InStep) {be : Bool} {clientPf : PixelFormat} {reg : Region} {data : Bytes}
    {image : Screen} {zs : z.Deflate} {s : Decoding z} (reads : Reads (updateRegion be clientPf reg s.screen) data image)
    (some : data ≠ []) (short : data.length ≤ 2000000000) (step : InStep zs s.zlib) :
    ∃ next, InStep (z.deflateData zs data).1 next ∧
      Reads (updateRegionStream z true be clientPf reg s)
        (sendIntBE32 (z.deflateData zs data).2.length ++ (z.deflateData zs data).2) ⟨image,next⟩ := by
  have sends : z.deflateData zs data = z.deflate zs data :=
    if_neg (by simpa using some)
  obtain ⟨next,restores,step'⟩ := h.restores zs s.zlib data step
  have inflates : z.inflateData s.zlib (z.deflate zs data).2 = .some (next,data) := by
    rw [ZLib.inflateData,if_neg (by simpa using h.flushed zs data some),restores]
  have small : (z.deflate zs data).2.length < 4294967296 := by
    have bound := h.bound zs data
    omega
  have inner := reads []
  rw [List.append_nil] at inner
  have unzips : inflateRegion z be clientPf reg s (z.deflate zs data).2 = .some ⟨image,next⟩ := by
    rw [inflateRegion,inflates]
    simp only [bind,Option.bind,inner]
  refine ⟨next,sends ▸ step',?_⟩
  rw [sends,← List.append_nil (sendIntBE32 _ ++ _),List.append_assoc]
  refine readsBind (readsSmall32 small) (readsBind (readsTake _) ?_)
  rw [unzips]
  exact readsOption _

theorem decodes (z : ZLib) (zrle be : Bool) (clientPf : PixelFormat) (reg : Region) (s : Decoding z) :
    recvDecodingUpdateRegion z be clientPf (if zrle then Encoding.zrle else .trle).code reg s =
      updateRegionStream z zrle be clientPf reg s := by
  cases zrle <;> rfl

/- The tiles one after another, zipped or not. -/
theorem readsJobs (h : z.Lossless InStep) (zrle : Bool) (jobs : List Rect)
    (each : ∀ job ∈ jobs, job.type = (if zrle then Encoding.zrle else .trle).code ∧
      Tile f.fb blockSize job.region ∧ Shows f job.region job.data)
    {zs : z.Deflate} {s : Decoding z} (step : InStep zs s.zlib) :
    ∃ next, InStep (sendJobs z zrle zs jobs).1 next ∧
      Reads (recvRects (recvDecodingUpdateRegion z f.be f.fb.format) (sendJobs z zrle zs jobs).2.length s)
        ((sendJobs z zrle zs jobs).2.flatMap Rect.bytes)
        ⟨paint (shown f) (covered Region.cells (jobs.map Rect.region)) s.screen,next⟩ := by
  induction jobs generalizing zs s with
  | nil =>
    refine ⟨s.zlib,step,?_⟩
    rw [List.map_nil,coveredNil,paintNothing]
    exact readsPure s
  | cons job rest ih =>
    obtain ⟨⟨typed,t,shows⟩,later⟩ := List.forall_mem_cons.mp each
    have header : Reads recvHeader (sendHeader job.type job.region) (job.region,job.type) := by
      rw [typed]
      exact readsHeader (storedFits (withinFits t.within f.fits) t.filled) (codeSmall _)
    rw [List.map_cons,← paintCovered]
    cases zrle with
    | false =>
      obtain ⟨next,step',reads⟩ := ih later (s := {s with screen := paint (shown f) job.region.cells s.screen}) step
      have first : Reads (recvDecodingUpdateRegion z f.be f.fb.format job.type job.region s) job.data
          {s with screen := paint (shown f) job.region.cells s.screen} := by
        rw [typed,decodes]
        exact readsMap (readsRegion t shows s.screen) _
      exact ⟨next,step',readsBind (readsBind header first) reads⟩
    | true =>
      have short := shows.short
      obtain ⟨middle,between,first⟩ := readsZipped h (readsRegion t shows s.screen) shows.some (by omega) step
      rw [← decodes,← typed] at first
      obtain ⟨next,step',reads⟩ := ih later (s := ⟨paint (shown f) job.region.cells s.screen,middle⟩) between
      exact ⟨next,step',readsBind (readsBind header first) reads⟩

end

/- An update is read to its last byte, shows the colours of the frame in its region and
leaves the rest of the screen as it was. -/
def Restores (z : ZLib) (InStep : z.Deflate → z.Inflate → Prop) (zrle : Bool) (cpu : Machine)
    (f : SharedFrame) : Prop :=
  ∀ zs other, InStep zs other → ∃ last rects,
    sendFrameBuffer z zrle f.stream cpu f.fb zs = some (last,rects) ∧
    ∀ screen, ∃ s', Reads (recvRects (recvDecodingUpdateRegion z f.be f.fb.format) rects.length ⟨screen,other⟩)
        (rects.flatMap Rect.bytes) s' ∧ InStep last s'.zlib ∧
      (∀ p, f.fb.region.Has p → SameRgb f.fb.format (s'.screen p) (f.fb.source p)) ∧
      ∀ p, ¬f.fb.region.Has p → s'.screen p = screen p

section
variable {z : ZLib} {InStep : z.Deflate → z.Inflate → Prop}

theorem readsFrame (h : z.Lossless InStep) (zrle : Bool) (cpu : Machine) (f : SharedFrame) {zs : z.Deflate}
    {other : z.Inflate} (step : InStep zs other) :
    ∃ last rects, sendFrameBuffer z zrle f.stream cpu f.fb zs = some (last,rects) ∧ ∀ screen, ∃ next,
      InStep last next ∧
      Reads (recvRects (recvDecodingUpdateRegion z f.be f.fb.format) rects.length ⟨screen,other⟩)
        (rects.flatMap Rect.bytes) ⟨paint (shown f) f.fb.region.cells screen,next⟩ := by
  obtain ⟨jobs,sends,_,tiles,each⟩ := @sendTilesRects f.fb blockSize (if zrle then .zrle else .trle) _ f.fits
    (by decide) (by decide) fun tile (t : Tile f.fb blockSize tile) => (sendRegionShows cpu t).imp fun _ both => both.1
  have good (job) (listed : job ∈ jobs) : job.type = (if zrle then Encoding.zrle else .trle).code ∧
      Tile f.fb blockSize job.region ∧ Shows f job.region job.data := by
    obtain ⟨typed,t,sent⟩ := each job listed
    obtain ⟨data,sent',shows⟩ := sendRegionShows cpu t
    cases Option.some.inj (sent.symm.trans sent')
    exact ⟨typed,t,shows⟩
  refine ⟨_,_,by rw [sendFrameBuffer,sends]; rfl,fun screen => ?_⟩
  rw [← tilesCovered tiles]
  exact readsJobs h zrle jobs good (s := ⟨screen,other⟩) step

theorem shownInside (f : SharedFrame) {screen : Screen} {p : Point} (has : f.fb.region.Has p) :
    paint (shown f) f.fb.region.cells screen p = keptPixel f.fb.format (f.fb.source p) := paintInside has

theorem restoredKept (h : z.Lossless InStep) {zrle : Bool} {cpu : Machine} {f : SharedFrame}
    (rgb : RgbBytes f.fb.format) (restores : Restores z InStep zrle cpu f) {p : Point}
    (has : f.fb.region.Has p) : ColourKept f.fb.format (f.fb.source p) := by
  obtain ⟨last,rects,sends,each⟩ := restores _ _ h.start
  obtain ⟨last',rects',sends',each'⟩ := readsFrame h zrle cpu f h.start
  cases Option.some.inj (sends.symm.trans sends')
  obtain ⟨s',reads,_,colours,_⟩ := each fun _ => 0
  obtain ⟨next,_,reads'⟩ := each' fun _ => 0
  cases readsUnique reads reads'
  have same : SameRgb f.fb.format (paint (shown f) f.fb.region.cells (fun _ => 0) p) (f.fb.source p) :=
    colours p has
  rwa [shownInside f has,sameRgbKept rgb] at same

end

/- A stream that answers as zlib does for one tile of one colour; for other bytes it
only marks them as its own. -/
def recordedTile : Bytes := [0x01,0x56,0x34,0x12]
def recordedZip : Bytes := [0x78,0x01,0x62,0x0C,0x33,0x11,0x02,0x00,0x00,0x00,0xFF,0xFF]
def recorded : ZLib where
  Deflate := Unit
  Inflate := Unit
  deflateInit := ()
  inflateInit := ()
  deflate _ data := ((),if data = recordedTile then recordedZip else 0 :: data)
  inflate _ zip := if zip = recordedZip then some ((),recordedTile) else zip.tail?.map fun data => ((),data)

theorem recordedLossless : recorded.Lossless fun _ _ => True where
  start := trivial
  flushed _ data _ := by
    simp only [recorded]
    split <;> simp [recordedZip]
  bound _ data := by
    simp only [recorded]
    split
    · simp [recordedZip]
    · simp
      omega
  restores _ _ data _ := by
    refine ⟨(),?_,trivial⟩
    simp only [recorded]
    by_cases same : data = recordedTile
    · rw [if_pos same,if_pos rfl,same]
    · have other : 0 :: data ≠ recordedZip := by simp [recordedZip]
      rw [if_neg same,if_neg other]
      rfl

def onePoint : Region := ⟨0,0,1,1⟩
def onePixel (pf : PixelFormat) (pixel : UInt32) (bits : pf.bitsPixel = 32) : SharedFrame :=
  ⟨⟨onePoint,pf,fun _ => pixel⟩,bits,show onePoint.Fits by decide,false,⟨1,1⟩⟩
def oneCore : Machine := ⟨1,⟨id,fun _ => .refl _⟩⟩

/- A client may ask for red in the highest byte and blue in the lowest. -/
def clientRXGB32 : PixelFormat := ⟨255,255,255,0,24,8,0,0,32⟩

end Ltsm.TrleUpdates
