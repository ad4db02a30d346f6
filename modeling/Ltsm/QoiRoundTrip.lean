import Ltsm.QoiAgreement

/-! QOI round trips: the encoder and decoder in agreement after every pixel of a region,
and the frame that is decoded. -/
namespace Ltsm.QoiRoundTrip
open Library Regions PixelFormats PixelStreams FrameBuffers QoiCodec QoiAgreement

/- The pixels of the decoder keep what they are set to. -/
def Stores (pf : PixelFormat) : Prop :=
  pf.bitsPixel = 32 ∨ (pf.bitsPixel = 24 ∧ pf.redShift ≤ 16 ∧ pf.greenShift ≤ 16 ∧ pf.blueShift ≤ 16)

/- The encoder's tables after so many pixels. -/
def encodeSteps (clientPf : PixelFormat) : Nat → Tables → List UInt32 → Tables
  | 0, e, _ => e
  | _ + 1, e, [] => e
  | k + 1, e, pixel :: rest => encodeSteps clientPf k (encodePixel clientPf rest.isEmpty e pixel).1 rest

theorem packedSmall {pf : PixelFormat} (stores : Stores pf) (col : Color) :
    (packBGRx col pf).toNat < 2 ^ pf.bitsPixel := by
  obtain bits | ⟨bits,red,green,blue⟩ := stores
  · rw [bits]
    exact UInt32.toNat_lt _
  · have low {shift : Nat} (small : shift ≤ 16) (value : UInt8) : (shiftUp value.toUInt32 shift).toNat < 2 ^ 24 := by
      have weight : 2 ^ shift ≤ 2 ^ 16 := Nat.pow_le_pow_right (by decide) small
      rw [shiftUpNat (by omega)]
      calc
        value.toNat * 2 ^ shift < 2 ^ 8 * 2 ^ shift :=
          Nat.mul_lt_mul_of_pos_right value.toNat_lt (Nat.two_pow_pos shift)
        _ ≤ 2 ^ 8 * 2 ^ 16 := Nat.mul_le_mul_left _ weight
    rw [bits]
    simp only [packBGRx,UInt32.toNat_or]
    exact Nat.or_lt_two_pow (Nat.or_lt_two_pow (low blue _) (low green _)) (low red _)

theorem rawPixelPacked {pf : PixelFormat} (stores : Stores pf) (col : Color) :
    FrameBuffer.rawPixel pf.bitsPixel (packBGRx col pf) = some (packBGRx col pf) := by
  have packed := packedSmall stores col
  obtain bits | ⟨bits,_⟩ := stores
  · rw [bits]
    rfl
  · have same : packBGRx col pf &&& 0xFFFFFF = packBGRx col pf := by
      have mask : (0xFFFFFF : UInt32).toNat = 2 ^ 24 - 1 := rfl
      apply UInt32.toNat_inj.mp
      rw [bits] at packed
      rw [UInt32.toNat_and,mask,Nat.and_two_pow_sub_one_eq_mod,Nat.mod_eq_of_lt packed]
    rw [bits]
    exact congrArg some same

/- The frame with the decoder's pixels at some points. -/
noncomputable def drawn (clientPf pf : PixelFormat) (source : Point → UInt32) (points : List Point)
    (fb : FrameBuffer) : FrameBuffer :=
  {fb with pixels := paint (fun p => repack clientPf pf (source p)) (among points) fb.pixels}

section
variable {clientPf pf : PixelFormat}

theorem drawnNil (source : Point → UInt32) (fb : FrameBuffer) : drawn clientPf pf source [] fb = fb := by
  rw [drawn,amongNil]

theorem drawnCons (source : Point → UInt32) (p : Point) (rest : List Point) (fb : FrameBuffer) :
    drawn clientPf pf source rest {fb with pixels := setPixel p (repack clientPf pf (source p)) fb.pixels} =
      drawn clientPf pf source (p :: rest) fb := by
  have first : setPixel p (repack clientPf pf (source p)) fb.pixels =
      paint (fun p => repack clientPf pf (source p)) {p} fb.pixels := setPixelPaint rfl
  rw [drawn,drawn,first,amongCons]

theorem drawnPixel (source : Point → UInt32) {points : List Point} {p : Point} (listed : p ∈ points)
    (fb : FrameBuffer) : (drawn clientPf pf source points fb).pixel p = repack clientPf pf (source p) := by
  have inside : p ∈ among points := listed
  simp only [drawn,FrameBuffer.pixel,paintInside inside]

/- After any number of pixels: the tables agree, the bytes are read as far as the
encoder has come, and the points show the pixels. -/
theorem decodesSteps (h : RgbFormat pf) (stores : Stores pf) (source : Point → UInt32) (k : Nat)
    (points : List Point) {fb : FrameBuffer} (format : fb.format = pf)
    (inside : ∀ p ∈ points, 0 ≤ p.x ∧ p.x < fb.region.width) (wide : fb.region.width ≤ 65536) {e d : Tables}
    (sync : Synced clientPf pf e d (points.map source)) (tail : Bytes) :
    ∃ d', (decodePixels pf (points.take k) (d,fb)).run ((ahead clientPf e (points.map source)).2 ++ tail) =
        some ((d',drawn clientPf pf source (points.take k) fb),
          (ahead clientPf (encodeSteps clientPf k e (points.map source)) ((points.drop k).map source)).2 ++ tail) ∧
      Synced clientPf pf (encodeSteps clientPf k e (points.map source)) d' ((points.drop k).map source) := by
  induction k generalizing points e d fb with
  | zero =>
    refine ⟨d,?_,sync⟩
    rw [List.take_zero,drawnNil]
    rfl
  | succ k ih =>
    cases points with
    | nil =>
      refine ⟨d,?_,sync⟩
      rw [List.take_nil,drawnNil]
      rfl
    | cons p rest =>
      obtain ⟨here,later⟩ := List.forall_mem_cons.mp inside
      obtain ⟨middle,bytes,reads,split,sync',shown⟩ := decodeStep h sync
      have pixel : middle.pixel = repack clientPf pf (source p) := by
        rw [Tables.pixel,shown]
        rfl
      have sets : fb.setPixel p (repack clientPf pf (source p)) =
          some {fb with pixels := setPixel p (repack clientPf pf (source p)) fb.pixels} := by
        refine setPixelInside ?_ here.2 (by omega)
        rw [format,repack,rawPixelPacked stores]
      let next : FrameBuffer := {fb with pixels := setPixel p (repack clientPf pf (source p)) fb.pixels}
      have same : next.format = pf := format
      obtain ⟨d',returns,last⟩ := ih rest same later wide sync'
      refine ⟨d',?_,last⟩
      rw [drawnCons] at returns
      rw [List.map_cons,split,List.take_succ_cons,decodePixels,List.append_assoc,StateT.run_bind,reads]
      simp only [bind,Option.bind,pixel,sets]
      exact returns

/- The decoder's frame for a region, before any pixel. -/
def blank (pf : PixelFormat) (reg : Region) : FrameBuffer :=
  ⟨⟨0,0,reg.width,reg.height⟩,pf,fun _ => 0⟩

/- A region of a frame, with sides that the counters of the loops go up to. -/
structure Encodable (reg : Region) : Prop where
  fits : reg.Fits
  wide : 0 < reg.width ∧ reg.width < 32768
  high : 0 < reg.height ∧ reg.height < 32768

/- What the region shows at a point relative to its corner. -/
def sourceAt (fb : FrameBuffer) (reg : Region) (p : Point) : UInt32 := fb.pixel ⟨reg.x + p.x,reg.y + p.y⟩

/- The tables agree after every pixel, no run is left at the end on either side, and the
decoded frame has the colours of the region. -/
structure Decodes (clientPf pf : PixelFormat) (fb : FrameBuffer) (reg : Region) (bytes : Bytes) : Prop where
  steps : ∀ k, ∃ d res rest, (decodePixels pf ((blank pf reg).region.points.take k) (.start,blank pf reg)).run bytes =
      some ((d,res),rest) ∧
    Agree clientPf pf (encodeSteps clientPf k .start (sourcePixels clientPf fb reg)) d ∧
    (reg.area ≤ k → (encodeSteps clientPf k .start (sourcePixels clientPf fb reg)).run = 0 ∧ d.run = 0)
  frame : ∃ res, decodeBGRx pf bytes reg = some res ∧ ∀ p, (blank pf reg).region.Has p →
    pf.red (res.pixel p) = fb.format.red (sourceAt fb reg p) ∧
    pf.green (res.pixel p) = fb.format.green (sourceAt fb reg p) ∧
    pf.blue (res.pixel p) = fb.format.blue (sourceAt fb reg p)

def RoundTrips (clientPf pf : PixelFormat) (fb : FrameBuffer) (reg : Region) : Prop :=
  ∃ bytes, encodeBGRx fb reg clientPf = some bytes ∧ Decodes clientPf pf fb reg bytes

theorem synced (clientPf pf : PixelFormat) (pixels : List UInt32) :
    Synced clientPf pf .start .start pixels := by
  refine ⟨agreeStart clientPf pf,⟨by decide,fun _ => rfl⟩,?_⟩
  rw [aheadNoRun clientPf rfl]
  rfl

/- The colour of a pixel through both formats. -/
theorem repackColour {format : PixelFormat} (source : RgbBytes format) (client : RgbFormat clientPf)
    (h : RgbFormat pf) (pixel : UInt32) :
    pf.red (repack clientPf pf (clientPf.pixel (format.color pixel))) = format.red pixel ∧
    pf.green (repack clientPf pf (clientPf.pixel (format.color pixel))) = format.green pixel ∧
    pf.blue (repack clientPf pf (clientPf.pixel (format.color pixel))) = format.blue pixel := by
  have same := colorPixel client (format.color pixel)
  simp only [rgb,Color.mk.injEq,and_true] at same
  obtain ⟨red,green,blue⟩ := packChannels h (clientPf.color (clientPf.pixel (format.color pixel)))
  have small (shift : Nat) : channel pixel shift 255 % 2 ^ 8 = channel pixel shift 255 :=
    Nat.mod_eq_of_lt (ByteFormat.channelSmall pixel shift)
  rw [repack,red,green,blue,same.1,same.2.1,same.2.2]
  simp only [PixelFormat.color,UInt8.toNat_ofNat',source.redChannel,source.greenChannel,source.blueChannel,
    small,and_self]

/- The client's pixel for a point of the region. -/
def sentPixel (clientPf : PixelFormat) (fb : FrameBuffer) (reg : Region) (p : Point) : UInt32 :=
  clientPf.pixel (fb.color (reg.topLeft.add p))

section
variable {fb : FrameBuffer} {reg : Region}

theorem decodesAfter (h : RgbFormat pf) (stores : Stores pf) (wide : reg.width ≤ 65536) (k : Nat) :
    ∃ d rest, (decodePixels pf ((blank pf reg).region.points.take k) (.start,blank pf reg)).run
        ((encodePixels clientPf .start (sourcePixels clientPf fb reg)).2 ++ qoiPadding) =
        some ((d,drawn clientPf pf (sentPixel clientPf fb reg) ((blank pf reg).region.points.take k)
          (blank pf reg)),rest) ∧
      Synced clientPf pf (encodeSteps clientPf k .start (sourcePixels clientPf fb reg)) d
        (((blank pf reg).region.points.drop k).map (sentPixel clientPf fb reg)) := by
  have format : (blank pf reg).format = pf := rfl
  have sent : sourcePixels clientPf fb reg = (blank pf reg).region.points.map (sentPixel clientPf fb reg) := rfl
  have inside (p) (listed : p ∈ (blank pf reg).region.points) : 0 ≤ p.x ∧ p.x < (blank pf reg).region.width := by
    obtain ⟨left,right,_,_⟩ := memPoints.mp listed
    simp only [blank] at left right ⊢
    omega
  obtain ⟨d,returns,sync⟩ := decodesSteps h stores (sentPixel clientPf fb reg) k (blank pf reg).region.points format
    inside wide (synced clientPf pf _) qoiPadding
  rw [aheadNoRun clientPf rfl,← sent] at returns
  exact ⟨d,_,returns,sync⟩

theorem decodesFrame (h : RgbFormat pf) (stores : Stores pf) (wide : reg.width ≤ 65536) :
    decodeBGRx pf ((encodePixels clientPf .start (sourcePixels clientPf fb reg)).2 ++ qoiPadding) reg =
      some (drawn clientPf pf (sentPixel clientPf fb reg) (blank pf reg).region.points (blank pf reg)) := by
  obtain ⟨d,rest,returns,_⟩ := decodesAfter h stores wide (blank pf reg).region.points.length
  rw [List.take_length] at returns
  rw [decodeBGRx]
  exact congrArg (fun result => result.bind fun read => some read.1.2) returns

/- The decoded pixels have the colours of the region. -/
theorem drawnColour (source : RgbBytes fb.format) (client : RgbFormat clientPf) (h : RgbFormat pf)
    (fits : reg.Fits) {p : Point} (has : (blank pf reg).region.Has p) :
    pf.red (repack clientPf pf (sentPixel clientPf fb reg p)) = fb.format.red (sourceAt fb reg p) ∧
    pf.green (repack clientPf pf (sentPixel clientPf fb reg p)) = fb.format.green (sourceAt fb reg p) ∧
    pf.blue (repack clientPf pf (sentPixel clientPf fb reg p)) = fb.format.blue (sourceAt fb reg p) := by
  obtain ⟨left,top,right,bottom⟩ := fits
  obtain ⟨afterLeft,beforeRight,afterTop,beforeBottom⟩ := has
  simp only [blank] at afterLeft beforeRight afterTop beforeBottom
  have placed : reg.topLeft.add p = ⟨reg.x + p.x,reg.y + p.y⟩ := by
    simp only [Point.add,Region.topLeft]
    rw [toInt16Fits (by omega) (by omega),toInt16Fits (by omega) (by omega)]
  rw [sourceAt,← placed]
  exact repackColour source client h _

theorem decodes (source : RgbBytes fb.format) (client : RgbFormat clientPf) (h : RgbFormat pf)
    (stores : Stores pf) (area : Encodable reg) :
    Decodes clientPf pf fb reg ((encodePixels clientPf .start (sourcePixels clientPf fb reg)).2 ++ qoiPadding) := by
  have wide : reg.width ≤ 65536 := by
    have below := area.wide.2
    omega
  constructor
  · intro k
    obtain ⟨d,rest,returns,sync⟩ := decodesAfter h stores wide k
    refine ⟨d,_,rest,returns,sync.agree,fun all => ?_⟩
    have length : (blank pf reg).region.points.length = reg.area := lengthPoints _
    rw [List.drop_eq_nil_of_le (by omega)] at sync
    exact ⟨sync.kept.flushed rfl,sync.run⟩
  · refine ⟨_,decodesFrame h stores wide,fun p has => ?_⟩
    rw [drawnPixel _ (memPoints.mpr has)]
    exact drawnColour source client h area.fits has

end
end

/- The size of the stream's buffer, eight thirds of a byte for a pixel, as an int that is
not negative; or so little below zero that it is rounded up to nothing. -/
def SizeFits (reg : Region) : Prop :=
  8 * reg.area % 4294967296 < 2147483648 ∨ 4294967280 ≤ 8 * reg.area % 4294967296
instance (reg) : Decidable (SizeFits reg) := by unfold SizeFits; infer_instance

theorem reservesIff (reg : Region) : reserves (streamSize reg) = true ↔ SizeFits reg := by
  have bytes : (reg.height * reg.width * 8 : Int) = (8 * reg.area : Nat) := by
    rw [Region.area]
    push_cast
    ring
  have eights : 8 * reg.area % 4294967296 % 8 = 0 := by omega
  unfold reserves streamSize SizeFits alignUp
  rw [bytes,decide_eq_true_iff]
  generalize 8 * reg.area = size at eights ⊢
  by_cases low : size % 4294967296 < 2147483648
  · have wrapped : wrapInt size = (size % 4294967296 : Nat) := by
      rw [wrapInt,Int.bmod_def]
      omega
    have stored : (((size % 4294967296 : Nat) : Int) / 3 % 18446744073709551616).toNat =
        size % 4294967296 / 3 := by omega
    have whole : (size % 4294967296 / 3 + 8 - 1) % 18446744073709551616 = size % 4294967296 / 3 + 7 := by omega
    rw [wrapped,Int.tdiv_eq_ediv_of_nonneg (by omega),stored,whole]
    omega
  · have wrapped : wrapInt size = -(4294967296 - size % 4294967296 : Nat) := by
      rw [wrapInt,Int.bmod_def]
      omega
    have stored : (-(((4294967296 - size % 4294967296 : Nat) : Int) / 3) % 18446744073709551616).toNat =
        18446744073709551616 - (4294967296 - size % 4294967296) / 3 := by omega
    rw [wrapped,Int.neg_tdiv,Int.tdiv_eq_ediv_of_nonneg (by omega),stored]
    obtain little | much := Nat.lt_or_ge ((4294967296 - size % 4294967296) / 3) 8
    · have rounded : (18446744073709551616 - (4294967296 - size % 4294967296) / 3 + 8 - 1) %
          18446744073709551616 = 7 - (4294967296 - size % 4294967296) / 3 := by omega
      rw [rounded]
      omega
    · have huge : (18446744073709551616 - (4294967296 - size % 4294967296) / 3 + 8 - 1) %
          18446744073709551616 = 18446744073709551616 - (4294967296 - size % 4294967296) / 3 + 7 := by omega
      rw [huge]
      omega

theorem serverRgb : RgbFormat serverBGRX32 := CompressedPixels.serverLanes.rgb

def stripe : FrameBuffer := ⟨⟨0,0,70,1⟩,serverBGRX32,fun p => if p.x < 3 then 0x123456 else 0x654321⟩

/- The first square of a power of two for which the size is negative. -/
def square16384 : FrameBuffer := ⟨⟨0,0,16384,16384⟩,serverBGRX32,fun _ => 0⟩

end Ltsm.QoiRoundTrip
