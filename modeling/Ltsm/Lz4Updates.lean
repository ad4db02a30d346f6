import Ltsm.QoiLength
import Ltsm.QoiRoundTrip

/-! LZ4 and LZ4-compressed QOI. The client gives the decompressor as much room as the
raw pixels of the region take, whatever has been compressed. -/
namespace Ltsm.Lz4Updates
open Library Regions PixelFormats PixelStreams UpdateMessages FrameBuffers QoiCodec QoiAgreement QoiRoundTrip
  QoiLength

/-! Frames in memory, row by row. -/

def nativeBytes (be : Bool) (bpp : Nat) (pixel : UInt32) : Bytes :=
  if be then bigEndian bpp pixel.toNat else littleEndian bpp pixel.toNat

def memory (be : Bool) (fb : FrameBuffer) (reg : Region) : Bytes :=
  reg.points.flatMap fun p => nativeBytes be fb.format.bytePerPixel (fb.pixel p)

def pixelAt (be : Bool) (bpp pitch : Nat) (buf : Bytes) (p : Point) : UInt32 :=
  ofWordBytes be ((buf.drop (p.y.toNat * pitch + p.x.toNat * bpp)).take bpp)

/- A frame of whole bytes, with no more in a pixel than they hold. -/
structure Native (fb : FrameBuffer) : Prop where
  bits : fb.format.bitsPixel = 8 ∨ fb.format.bitsPixel = 16 ∨ fb.format.bitsPixel = 24 ∨
    fb.format.bitsPixel = 32
  small : ∀ p, (fb.pixel p).toNat < 256 ^ fb.format.bytePerPixel

/- LZ4_compress_fast with LZ4_compressBound bytes of room, and LZ4_decompress_safe with
the room it is told; sizes are ints. -/
structure LZ4 where
  compressFast : Bytes → Bytes
  decompressSafe : Bytes → Int → Option Bytes

def MAX_INPUT_SIZE : Nat := 0x7E000000

structure LZ4.Lossless (lz : LZ4) : Prop where
  restores : ∀ data, data.length ≤ MAX_INPUT_SIZE → ∀ capacity : Int,
    lz.decompressSafe (lz.compressFast data) capacity = if data.length ≤ capacity then some data else none
  bound : ∀ data, data.length ≤ MAX_INPUT_SIZE →
    (lz.compressFast data).length ≤ data.length + data.length / 255 + 16
  refuses : ∀ data, MAX_INPUT_SIZE < data.length → data.length < 4294967296 → lz.compressFast data = []
  nothing : ∀ capacity, lz.decompressSafe [] capacity = none

section
variable (lz : LZ4) (zqoi be : Bool)

def sendRegion (clientPf : PixelFormat) (fb : FrameBuffer) (reg : Region) : Option Bytes :=
  if zqoi then (encodeBGRx fb reg clientPf).map lz.compressFast
  else some (lz.compressFast (memory be fb reg))

def sendRect (clientPf : PixelFormat) (fb : FrameBuffer) (reg : Region) : Option Bytes :=
  (sendRegion lz zqoi be clientPf fb reg).map fun data => sendIntBE32 data.length ++ data

def lz4DecompressSafe (buf : Bytes) (outlen : Nat) : Option Bytes := lz.decompressSafe buf (wrapInt outlen)

def decodeLZ4 (buf : Bytes) (reg : Region) (pitch : Nat) : Option Bytes :=
  lz4DecompressSafe lz buf (pitch * reg.height % 4294967296)

def decodeZQOI (buf : Bytes) (rsz : Region) (pitch : Nat) (pf : PixelFormat) : Option Bytes := do
  let data ← lz4DecompressSafe lz buf (pitch * rsz.height % 4294967296)
  let res ← decodeBGRx pf data rsz
  some (memory be res res.region)

def updateRegionBuf (serverPf : PixelFormat) (reg : Region) (buf : Bytes) : Option Bytes :=
  let pitch := serverPf.bytePerPixel * reg.width
  if zqoi then decodeZQOI lz be buf reg pitch serverPf else decodeLZ4 lz buf reg pitch

def recvUpdateRegion (serverPf : PixelFormat) (reg : Region) : Reader Bytes :=
  recvIntBE32 >>= fun len => takeBytes len >>= fun buf => ofOption (updateRegionBuf lz zqoi be serverPf reg buf)

end

theorem lengthNative (be : Bool) (bpp : Nat) (pixel : UInt32) : (nativeBytes be bpp pixel).length = bpp := by
  cases be <;> simp [nativeBytes]

theorem ofNative (be : Bool) {bpp : Nat} {pixel : UInt32} (small : pixel.toNat < 256 ^ bpp) :
    ofWordBytes be (nativeBytes be bpp pixel) = pixel := by
  cases be
  · simp only [ofWordBytes,nativeBytes,Bool.false_eq_true,if_false,ofLittleEndianOf,Nat.mod_eq_of_lt small,
      UInt32.ofNat_toNat]
  · simp only [ofWordBytes,nativeBytes,if_true,ofBigEndianOf,Nat.mod_eq_of_lt small,UInt32.ofNat_toNat]

theorem lengthMemory (be : Bool) (fb : FrameBuffer) (reg : Region) :
    (memory be fb reg).length = fb.format.bytePerPixel * reg.area := by
  rw [memory,lengthBlocks reg.points fun _ _ => lengthNative be _ _,lengthPoints,Nat.mul_comm]

/- What is read back at a point of a region put in memory. -/
theorem pixelMemory (be : Bool) {fb : FrameBuffer} (small : ∀ p, (fb.pixel p).toNat < 256 ^ fb.format.bytePerPixel)
    {reg : Region} {p : Point} (has : (Region.mk 0 0 reg.width reg.height).Has p) :
    pixelAt be fb.format.bytePerPixel (fb.format.bytePerPixel * reg.width) (memory be fb reg) p =
      sourceAt fb reg p := by
  obtain ⟨left,right,top,bottom⟩ := has
  simp only at left right top bottom
  have block := pointBlock (g := fun p => nativeBytes be fb.format.bytePerPixel (fb.pixel p))
    (fun _ => lengthNative be _ _) (show p.x.toNat < reg.width by omega) (show p.y.toNat < reg.height by omega)
  have place : (⟨reg.x + p.x.toNat,reg.y + p.y.toNat⟩ : Point) = ⟨reg.x + p.x,reg.y + p.y⟩ := by
    congr 1 <;> omega
  rw [place] at block
  rw [pixelAt,memory,Nat.mul_comm fb.format.bytePerPixel,block,ofNative be (small _),sourceAt]

/- What a decoded pixel has to do with the pixel sent: LZ4 keeps it, QOI its colour. -/
def Matches (zqoi : Bool) (pf : PixelFormat) (shown source : UInt32) : Prop :=
  if zqoi then pf.red shown = pf.red source ∧ pf.green shown = pf.green source ∧ pf.blue shown = pf.blue source
  else shown = source

/- The rectangle is sent, and read to its end into as many bytes as the region takes, with
every pixel of the region in them. -/
def Restores (lz : LZ4) (zqoi be : Bool) (clientPf : PixelFormat) (fb : FrameBuffer) (reg : Region) : Prop :=
  let pitch := fb.format.bytePerPixel * reg.width
  ∃ data buf, sendRect lz zqoi be clientPf fb reg = some data ∧
    Reads (recvUpdateRegion lz zqoi be fb.format reg) data buf ∧ buf.length = pitch * reg.height ∧
    ∀ p, (Region.mk 0 0 reg.width reg.height).Has p →
      Matches zqoi fb.format (pixelAt be fb.format.bytePerPixel pitch buf p) (sourceAt fb reg p)

/- The formats that QOI keeps the colours of. -/
structure QoiFormats (clientPf pf : PixelFormat) : Prop where
  client : RgbFormat clientPf
  server : RgbFormat pf
  stores : Stores pf

/- What is compressed is no more than LZ4 takes, and no more than the raw pixels. -/
def CapacityFits (zqoi : Bool) (clientPf : PixelFormat) (fb : FrameBuffer) (reg : Region) : Prop :=
  let raw := fb.format.bytePerPixel * reg.area
  if zqoi then SizeFits reg ∧ streamLength clientPf fb reg ≤ raw ∧ raw < 2147483648 ∧
    streamLength clientPf fb reg ≤ MAX_INPUT_SIZE
  else raw ≤ MAX_INPUT_SIZE
instance (zqoi clientPf fb reg) : Decidable (CapacityFits zqoi clientPf fb reg) := by
  unfold CapacityFits
  infer_instance

section
variable {lz : LZ4} {zqoi be : Bool} {clientPf : PixelFormat} {fb : FrameBuffer} {reg : Region}

/- The raw pixels take fewer bytes than an unsigned int counts. -/
theorem rawBelow (native : Native fb) (area : Encodable reg) : fb.format.bytePerPixel * reg.area < 4294967296 := by
  have wide : fb.format.bytePerPixel ≤ 4 := by
    have bits := native.bits
    unfold PixelFormat.bytePerPixel
    omega
  have sides : reg.width * reg.height < 32768 * 32768 := Nat.mul_lt_mul_of_lt_of_lt area.wide.2 area.high.2
  calc
    fb.format.bytePerPixel * reg.area ≤ 4 * reg.area := Nat.mul_le_mul_right _ wide
    _ < 4 * (32768 * 32768) := Nat.mul_lt_mul_of_pos_left sides (by decide)

/- Decompressing what has been compressed, in a capacity that is passed as an int. -/
theorem decompresses (lossless : lz.Lossless) {data : Bytes} (small : data.length < 4294967296) {size : Nat}
    (fits : size < 4294967296) : lz4DecompressSafe lz (lz.compressFast data) size =
      if data.length ≤ MAX_INPUT_SIZE ∧ data.length ≤ size ∧ size < 2147483648 then some data else none := by
  unfold lz4DecompressSafe
  obtain takes | refused := Nat.lt_or_ge MAX_INPUT_SIZE data.length
  · have none : ¬(data.length ≤ MAX_INPUT_SIZE ∧ data.length ≤ size ∧ size < 2147483648) := by omega
    rw [lossless.refuses data takes small,lossless.nothing,if_neg none]
  · have capacity : (data.length : Int) ≤ wrapInt size ↔
        data.length ≤ MAX_INPUT_SIZE ∧ data.length ≤ size ∧ size < 2147483648 := by
      rw [wrapInt,Int.bmod_def]
      omega
    rw [lossless.restores data refused]
    exact if_congr capacity rfl rfl

theorem compressedSmall (lossless : lz.Lossless) {data : Bytes} (small : data.length < 4294967296) :
    (lz.compressFast data).length < 4294967296 := by
  obtain takes | refused := Nat.lt_or_ge MAX_INPUT_SIZE data.length
  · rw [lossless.refuses data takes small]
    decide
  · have bound := lossless.bound data refused
    unfold MAX_INPUT_SIZE at refused
    omega

/- What the client reads of a rectangle is what its data decode to. -/
theorem readsRect {serverPf : PixelFormat} {data buf : Bytes} (small : data.length < 4294967296) :
    Reads (recvUpdateRegion lz zqoi be serverPf reg) (sendIntBE32 data.length ++ data) buf ↔
      updateRegionBuf lz zqoi be serverPf reg data = some buf := by
  have length := readsIntBE32 data.length
  rw [Nat.mod_eq_of_lt small] at length
  constructor
  · intro reads
    have returns := reads []
    rw [recvUpdateRegion,StateT.run_bind,List.append_assoc,length] at returns
    simp only [bind,Option.bind,StateT.run] at returns
    have taken : takeBytes data.length (data ++ []) = some (data,[]) := readsTake data []
    simp only [StateT.bind,bind,Option.bind,taken,ofOption] at returns
    obtain ⟨decoded,decodes,same⟩ := Option.map_eq_some_iff.mp returns
    rw [decodes,(Prod.mk.inj same).1]
  · intro decodes
    have last : Reads (ofOption (updateRegionBuf lz zqoi be serverPf reg data)) [] buf := by
      rw [decodes]
      exact readsOption buf
    have taken := readsBind (readsTake data)
      (f := fun buf => ofOption (updateRegionBuf lz zqoi be serverPf reg buf)) last
    rw [List.append_nil] at taken
    exact readsBind length taken

theorem streamBelow (area : Encodable reg) : streamLength clientPf fb reg < 4294967296 := by
  have pixels : opcodesSize clientPf [] (sourcePixels clientPf fb reg) ≤ 4 * (sourcePixels clientPf fb reg).length :=
    opcodesSmall _ _
  have count : (sourcePixels clientPf fb reg).length = reg.area := by
    rw [sourcePixels,List.length_map,lengthPoints]
    rfl
  have sides : reg.area ≤ 32767 * 32767 :=
    Nat.mul_le_mul (Nat.le_of_lt_succ area.wide.2) (Nat.le_of_lt_succ area.high.2)
  unfold streamLength
  omega

theorem pitchArea (bpp : Nat) (reg : Region) : bpp * reg.width * reg.height = bpp * reg.area := Nat.mul_assoc _ _ _

/- What the client makes of the raw pixels it is sent. -/
theorem rawDecoded (be : Bool) (lossless : lz.Lossless) (native : Native fb) (area : Encodable reg) :
    updateRegionBuf lz false be fb.format reg (lz.compressFast (memory be fb reg)) =
      if fb.format.bytePerPixel * reg.area ≤ MAX_INPUT_SIZE then some (memory be fb reg) else none := by
  have below := rawBelow native area
  have length := lengthMemory be fb reg
  have room : fb.format.bytePerPixel * reg.area ≤ MAX_INPUT_SIZE ∧
      fb.format.bytePerPixel * reg.area ≤ fb.format.bytePerPixel * reg.area ∧
      fb.format.bytePerPixel * reg.area < 2147483648 ↔ fb.format.bytePerPixel * reg.area ≤ MAX_INPUT_SIZE := by
    unfold MAX_INPUT_SIZE
    omega
  have decompressed := decompresses lossless (length ▸ below) below
  rw [length,if_congr room rfl rfl] at decompressed
  simp only [updateRegionBuf,Bool.false_eq_true,if_false,decodeLZ4,pitchArea,Nat.mod_eq_of_lt below]
  exact decompressed

theorem rawRestoresIff (lossless : lz.Lossless) (native : Native fb) (area : Encodable reg) :
    Restores lz false be clientPf fb reg ↔ CapacityFits false clientPf fb reg := by
  have length := lengthMemory be fb reg
  have small : (memory be fb reg).length < 4294967296 := length ▸ rawBelow native area
  have decoded := rawDecoded be lossless native area
  have sent : sendRect lz false be clientPf fb reg = some (sendIntBE32 (lz.compressFast (memory be fb reg)).length ++
      lz.compressFast (memory be fb reg)) := rfl
  simp only [CapacityFits,Bool.false_eq_true,if_false]
  constructor
  · rintro ⟨data,buf,sends,reads,_⟩
    cases sent.symm.trans sends
    rw [readsRect (compressedSmall lossless small),decoded] at reads
    by_contra full
    rw [if_neg full] at reads
    cases reads
  · intro room
    rw [if_pos room] at decoded
    refine ⟨_,memory be fb reg,sent,(readsRect (compressedSmall lossless small)).mpr decoded,?_,fun p has => ?_⟩
    · exact length.trans (pitchArea _ _).symm
    · exact pixelMemory be native.small has

/- No decoded pixel has more in it than its bytes hold. -/
theorem drawnSmall {pf : PixelFormat} (stores : Stores pf) (points : List Point) (p : Point) :
    ((drawn clientPf pf (sentPixel clientPf fb reg) points (blank pf reg)).pixel p).toNat < 256 ^ pf.bytePerPixel := by
  have bytes : 256 ^ pf.bytePerPixel = 2 ^ pf.bitsPixel := by
    obtain bits | ⟨bits,_⟩ := stores <;> rw [PixelFormat.bytePerPixel,bits] <;> decide
  rw [bytes]
  by_cases inside : p ∈ among points
  · simp only [drawn,FrameBuffer.pixel,paintInside inside]
    exact packedSmall stores _
  · simp only [drawn,FrameBuffer.pixel,paintOutside inside]
    exact Nat.two_pow_pos _

/- The stream for a region, and the frame that the client makes of it. -/
def qoiStream (clientPf : PixelFormat) (fb : FrameBuffer) (reg : Region) : Bytes :=
  (encodePixels clientPf .start (sourcePixels clientPf fb reg)).2 ++ qoiPadding

noncomputable def qoiFrame (clientPf : PixelFormat) (fb : FrameBuffer) (reg : Region) : FrameBuffer :=
  drawn clientPf fb.format (sentPixel clientPf fb reg) (blank fb.format reg).region.points (blank fb.format reg)

theorem streamSmall (area : Encodable reg) : (qoiStream clientPf fb reg).length < 4294967296 := by
  rw [qoiStream,lengthStream]
  exact streamBelow area

/- What the client makes of a compressed stream. -/
theorem zqoiDecoded (be : Bool) (lossless : lz.Lossless) (native : Native fb) (area : Encodable reg)
    (formats : QoiFormats clientPf fb.format) :
    updateRegionBuf lz true be fb.format reg (lz.compressFast (qoiStream clientPf fb reg)) =
      if streamLength clientPf fb reg ≤ MAX_INPUT_SIZE ∧
        streamLength clientPf fb reg ≤ fb.format.bytePerPixel * reg.area ∧ fb.format.bytePerPixel * reg.area < 2147483648 then
        some (memory be (qoiFrame clientPf fb reg) (qoiFrame clientPf fb reg).region)
      else none := by
  have below := rawBelow native area
  have length : (qoiStream clientPf fb reg).length = streamLength clientPf fb reg := lengthStream clientPf fb reg
  have wide : reg.width ≤ 65536 := by
    have narrow := area.wide.2
    omega
  simp only [updateRegionBuf,if_true,decodeZQOI,pitchArea,Nat.mod_eq_of_lt below,
    decompresses lossless (streamSmall area) below,length]
  split
  · exact congrArg (fun result => result.bind fun res => some (memory be res res.region))
      (decodesFrame formats.server formats.stores wide)
  · rfl

/- The colour of a pixel in the memory of that frame. -/
theorem zqoiMatches (area : Encodable reg) (formats : QoiFormats clientPf fb.format) {p : Point}
    (has : (blank fb.format reg).region.Has p) : Matches true fb.format
      (pixelAt be fb.format.bytePerPixel (fb.format.bytePerPixel * reg.width)
        (memory be (qoiFrame clientPf fb reg) (qoiFrame clientPf fb reg).region) p) (sourceAt fb reg p) := by
  have held (p : Point) : ((qoiFrame clientPf fb reg).pixel p).toNat < 256 ^ fb.format.bytePerPixel :=
    drawnSmall formats.stores _ p
  have stored : pixelAt be fb.format.bytePerPixel (fb.format.bytePerPixel * reg.width)
      (memory be (qoiFrame clientPf fb reg) (qoiFrame clientPf fb reg).region) p =
      sourceAt (qoiFrame clientPf fb reg) (qoiFrame clientPf fb reg).region p :=
    @pixelMemory be (qoiFrame clientPf fb reg) held (qoiFrame clientPf fb reg).region p has
  have placed : sourceAt (qoiFrame clientPf fb reg) (qoiFrame clientPf fb reg).region p =
      (qoiFrame clientPf fb reg).pixel p := by
    have origin : (⟨0 + p.x,0 + p.y⟩ : Point) = p := by simp
    rw [sourceAt]
    exact congrArg (qoiFrame clientPf fb reg).pixel origin
  have colour : (qoiFrame clientPf fb reg).pixel p = repack clientPf fb.format (sentPixel clientPf fb reg p) :=
    drawnPixel _ (memPoints.mpr has) _
  rw [stored,placed,Matches,if_pos rfl,colour]
  exact drawnColour formats.server.toRgbBytes formats.client formats.server area.fits has

theorem zqoiRestoresIff (lossless : lz.Lossless) (native : Native fb) (area : Encodable reg)
    (formats : QoiFormats clientPf fb.format) :
    Restores lz true be clientPf fb reg ↔ CapacityFits true clientPf fb reg := by
  have decoded := zqoiDecoded be lossless native area formats
  have small : (lz.compressFast (qoiStream clientPf fb reg)).length < 4294967296 :=
    compressedSmall lossless (streamSmall area)
  have sent : sendRect lz true be clientPf fb reg = if SizeFits reg then
      some (sendIntBE32 (lz.compressFast (qoiStream clientPf fb reg)).length ++
        lz.compressFast (qoiStream clientPf fb reg)) else none := by
    simp only [sendRect,sendRegion,if_true,encodeBGRx,reservesIff]
    split <;> rfl
  simp only [CapacityFits,if_true]
  constructor
  · rintro ⟨data,buf,sends,reads,_⟩
    rw [sent] at sends
    split at sends
    · rename_i fits
      cases sends
      rw [readsRect small,decoded] at reads
      split at reads
      · rename_i room
        exact ⟨fits,room.2.1,room.2.2,room.1⟩
      · cases reads
    · cases sends
  · rintro ⟨fits,least,int,takes⟩
    rw [if_pos fits] at sent
    rw [if_pos ⟨takes,least,int⟩] at decoded
    refine ⟨_,_,sent,(readsRect small).mpr decoded,?_,fun p has => zqoiMatches area formats has⟩
    exact (lengthMemory be _ _).trans (pitchArea _ _).symm

end

/- LZ4 blocks of literals only, which short data are compressed to. -/
def literals : LZ4 where
  compressFast data :=
    if MAX_INPUT_SIZE < data.length then []
    else if data.length < 15 then UInt8.ofNat (16 * data.length) :: data
    else 0xF0 :: (List.replicate ((data.length - 15) / 255) 255 ++ UInt8.ofNat ((data.length - 15) % 255) :: data)
  decompressSafe block capacity :=
    match block with
    | [] => none
    | token :: rest =>
      let data := if token = 0xF0 then (rest.dropWhile (· == 255)).tail else rest
      if data.length ≤ capacity then some data else none

theorem literalsLossless : literals.Lossless := by
  constructor
  · intro data takes capacity
    simp only [literals,if_neg (Nat.not_lt.mpr takes)]
    by_cases short : data.length < 15
    · have token : UInt8.ofNat (16 * data.length) ≠ 0xF0 := by
        intro same
        have value := congrArg UInt8.toNat same
        rw [UInt8.toNat_ofNat'] at value
        have small : (0xF0 : UInt8).toNat = 240 := rfl
        omega
      simp only [if_pos short,if_neg token]
    · have last : UInt8.ofNat ((data.length - 15) % 255) ≠ 255 := by
        intro same
        have value := congrArg UInt8.toNat same
        rw [UInt8.toNat_ofNat'] at value
        have small : (255 : UInt8).toNat = 255 := rfl
        omega
      have lengths : (List.replicate ((data.length - 15) / 255) (255 : UInt8) ++
          UInt8.ofNat ((data.length - 15) % 255) :: data).dropWhile (· == 255) =
          UInt8.ofNat ((data.length - 15) % 255) :: data := by
        rw [List.dropWhile_append_of_pos (by simp),List.dropWhile_cons_of_neg (by simpa using last)]
      simp only [if_neg short,if_true,lengths,List.tail_cons]
  · intro data takes
    simp only [literals,if_neg (Nat.not_lt.mpr takes)]
    split
    · simp only [List.length_cons]
      omega
    · simp only [List.length_cons,List.length_append,List.length_replicate]
      omega
  · intro data refused _
    exact if_pos refused
  · intro capacity
    rfl

/- One colour all over. -/
def uniform (width : Nat) : FrameBuffer := ⟨⟨0,0,width,1⟩,serverBGRX32,fun _ => 0x123456⟩

theorem uniformNative (width : Nat) : Native (uniform width) := by
  refine ⟨.inr (.inr (.inr rfl)),fun p => ?_⟩
  have small : (0x123456 : UInt32).toNat < 256 ^ serverBGRX32.bytePerPixel := by decide
  exact small

end Ltsm.Lz4Updates
