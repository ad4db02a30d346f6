import Mathlib.Data.Nat.Bitwise
import Mathlib.Tactic.Ring

/-! Pixel formats: where the channels of a pixel lie, and how a pixel of one format
is turned into one of another. A channel has a maximum and a shift; pixels are the
32-bit values of the source, whatever width a format gives them. -/
namespace Ltsm.PixelFormats

structure Color where
  r : UInt8
  g : UInt8
  b : UInt8
  x : UInt8 := 0
  deriving DecidableEq, Repr

structure PixelFormat where
  redMax : Nat
  greenMax : Nat
  blueMax : Nat
  alphaMax : Nat
  redShift : Nat
  greenShift : Nat
  blueShift : Nat
  alphaShift : Nat
  bitsPixel : Nat
  deriving DecidableEq, Repr

def shiftUp (value : UInt32) (shift : Nat) : UInt32 := value <<< UInt32.ofNat shift

def channel (pixel : UInt32) (shift max : Nat) : Nat := (pixel >>> UInt32.ofNat shift).toNat &&& max

namespace PixelFormat

def bytePerPixel (pf : PixelFormat) : Nat := pf.bitsPixel / 8

def compare (pf other : PixelFormat) (skipAlpha : Bool) : Bool :=
  pf.bitsPixel = other.bitsPixel &&
    (pf.redMax = other.redMax && pf.greenMax = other.greenMax && pf.blueMax = other.blueMax) &&
    (skipAlpha || pf.alphaMax = other.alphaMax) &&
    (pf.redShift = other.redShift && pf.greenShift = other.greenShift && pf.blueShift = other.blueShift) &&
    (skipAlpha || pf.alphaShift = other.alphaShift)

def leastSignificant (pf : PixelFormat) : Bool :=
  pf.redShift = 0 || pf.blueShift = 0 || pf.greenShift = 0

def rmask (pf : PixelFormat) : UInt32 := shiftUp (UInt32.ofNat pf.redMax) pf.redShift
def gmask (pf : PixelFormat) : UInt32 := shiftUp (UInt32.ofNat pf.greenMax) pf.greenShift
def bmask (pf : PixelFormat) : UInt32 := shiftUp (UInt32.ofNat pf.blueMax) pf.blueShift
def amask (pf : PixelFormat) : UInt32 := shiftUp (UInt32.ofNat pf.alphaMax) pf.alphaShift

def red (pf : PixelFormat) (pixel : UInt32) : Nat := channel pixel pf.redShift pf.redMax
def green (pf : PixelFormat) (pixel : UInt32) : Nat := channel pixel pf.greenShift pf.greenMax
def blue (pf : PixelFormat) (pixel : UInt32) : Nat := channel pixel pf.blueShift pf.blueMax
def alpha (pf : PixelFormat) (pixel : UInt32) : Nat := channel pixel pf.alphaShift pf.alphaMax

def color (pf : PixelFormat) (pixel : UInt32) : Color :=
  ⟨UInt8.ofNat (pf.red pixel),UInt8.ofNat (pf.green pixel),UInt8.ofNat (pf.blue pixel),
    UInt8.ofNat (pf.alpha pixel)⟩

/- The channels put in their places. -/
def assemble (pf : PixelFormat) (r g b : UInt32) : UInt32 :=
  shiftUp r pf.redShift ||| shiftUp g pf.greenShift ||| shiftUp b pf.blueShift

def assembleAlpha (pf : PixelFormat) (a r g b : UInt32) : UInt32 :=
  shiftUp a pf.alphaShift ||| pf.assemble r g b

def scaled (value : UInt8) (max scale : Nat) : UInt32 :=
  if max = 0xFF then value.toUInt32 else UInt32.ofNat (value.toNat * scale / 255)

/- The alpha channel is scaled by the blue maximum. -/
def pixel (pf : PixelFormat) (col : Color) : UInt32 :=
  let r := scaled col.r pf.redMax pf.redMax
  let g := scaled col.g pf.greenMax pf.greenMax
  let b := scaled col.b pf.blueMax pf.blueMax
  if pf.alphaMax ≠ 0 then pf.assembleAlpha (scaled col.x pf.alphaMax pf.blueMax) r g b
  else pf.assemble r g b

end PixelFormat

/- `int` arithmetic, which wraps around on the machines the program is built for. -/
def wrapInt (value : Int) : Int := value.bmod 4294967296

def convertMax (col1 max1 max2 : Nat) : UInt32 :=
  if max1 = 0 then 0
  else UInt32.ofInt ((wrapInt (col1 * (max2 + 1))).tdiv (max1 + 1))

def convertChannel (value max1 max2 : Nat) : UInt32 :=
  if max1 = max2 then UInt32.ofNat value else convertMax value max1 max2

def rescale (pixel : UInt32) (pf1 pf2 : PixelFormat) : UInt32 :=
  pf2.assembleAlpha (convertChannel (pf1.alpha pixel) pf1.alphaMax pf2.alphaMax)
    (convertChannel (pf1.red pixel) pf1.redMax pf2.redMax)
    (convertChannel (pf1.green pixel) pf1.greenMax pf2.greenMax)
    (convertChannel (pf1.blue pixel) pf1.blueMax pf2.blueMax)

def convertPixelFromTo (pixel : UInt32) (pf1 pf2 : PixelFormat) : UInt32 :=
  if pf2.compare pf1 true then
    if pf2.alphaMax = pf1.alphaMax ∧ pf2.alphaShift = pf1.alphaShift then pixel
    else if pf2.alphaMax = 0 ∧ pf1.alphaMax ≠ 0 then ~~~pf1.amask &&& pixel
    else if pf2.alphaMax ≠ 0 ∧ pf1.alphaMax = 0 then pf2.amask ||| pixel
    else rescale pixel pf1 pf2
  else rescale pixel pf1 pf2

def PixelFormat.convertFrom (pf source : PixelFormat) (pixel : UInt32) : UInt32 :=
  convertPixelFromTo pixel source pf

@[simp] theorem compareSelf (pf : PixelFormat) (skipAlpha : Bool) : pf.compare pf skipAlpha = true := by
  simp [PixelFormat.compare]

@[simp] theorem convertSelf (pf : PixelFormat) (pixel : UInt32) : pf.convertFrom pf pixel = pixel := by
  simp [PixelFormat.convertFrom,convertPixelFromTo]

/-! Channels of eight bits, anywhere in the word. -/

def Apart (shift other : Nat) : Prop := shift + 8 ≤ other ∨ other + 8 ≤ shift
instance (shift other) : Decidable (Apart shift other) := by unfold Apart; infer_instance

structure ByteFormat extends PixelFormat where
  bits : bitsPixel = 32
  redByte : redMax = 255
  greenByte : greenMax = 255
  blueByte : blueMax = 255
  alphaNone : alphaMax = 0
  redLow : redShift ≤ 24
  greenLow : greenShift ≤ 24
  blueLow : blueShift ≤ 24
  redGreen : Apart redShift greenShift
  redBlue : Apart redShift blueShift
  greenBlue : Apart greenShift blueShift

theorem channelOr (x y : UInt32) (shift max : Nat) :
    channel (x ||| y) shift max = channel x shift max ||| channel y shift max := by
  simp only [channel,UInt32.toNat_shiftRight,UInt32.toNat_or,Nat.shiftRight_or_distrib,
    Nat.and_or_distrib_right]

theorem channelByte {shift : Nat} (low : shift ≤ 24) (pixel : UInt32) :
    channel pixel shift 255 = pixel.toNat / 2 ^ shift % 256 := by
  have small : (UInt32.ofNat shift).toNat % 32 = shift := by
    rw [UInt32.toNat_ofNat']
    omega
  rw [channel,UInt32.toNat_shiftRight,small,Nat.shiftRight_eq_div_pow]
  exact Nat.and_two_pow_sub_one_eq_mod _ 8

theorem shiftUpNat {shift : Nat} (low : shift ≤ 24) (value : UInt8) :
    (shiftUp value.toUInt32 shift).toNat = value.toNat * 2 ^ shift := by
  have small : (UInt32.ofNat shift).toNat % 32 = shift := by
    rw [UInt32.toNat_ofNat']
    omega
  have room : value.toNat * 2 ^ shift < 2 ^ 32 := calc
    value.toNat * 2 ^ shift < 2 ^ 8 * 2 ^ shift :=
      Nat.mul_lt_mul_of_pos_right value.toNat_lt (Nat.two_pow_pos shift)
    _ = 2 ^ (8 + shift) := (Nat.pow_add 2 8 shift).symm
    _ ≤ 2 ^ 32 := Nat.pow_le_pow_right (by decide) (by omega)
  rw [shiftUp,UInt32.toNat_shiftLeft,small,Nat.shiftLeft_eq,UInt8.toNat_toUInt32,Nat.mod_eq_of_lt room]

theorem channelShiftUp {shift : Nat} (low : shift ≤ 24) (value : UInt8) :
    channel (shiftUp value.toUInt32 shift) shift 255 = value.toNat := by
  rw [channelByte low,shiftUpNat low,Nat.mul_div_cancel _ (Nat.two_pow_pos shift)]
  exact Nat.mod_eq_of_lt value.toNat_lt

theorem channelApart {shift other : Nat} (low : shift ≤ 24) (lowOther : other ≤ 24)
    (apart : Apart shift other) (value : UInt8) :
    channel (shiftUp value.toUInt32 other) shift 255 = 0 := by
  rw [channelByte low,shiftUpNat lowOther]
  obtain below | above := apart
  · have split : other = 8 + (other - shift - 8) + shift := by omega
    rw [split,Nat.pow_add 2 _ shift,← Nat.mul_assoc,Nat.mul_div_cancel _ (Nat.two_pow_pos shift),
      Nat.pow_add,← Nat.mul_assoc,Nat.mul_right_comm]
    exact Nat.mul_mod_left _ _
  · have small : value.toNat * 2 ^ other < 2 ^ shift := calc
      value.toNat * 2 ^ other < 2 ^ 8 * 2 ^ other :=
        Nat.mul_lt_mul_of_pos_right value.toNat_lt (Nat.two_pow_pos other)
      _ = 2 ^ (8 + other) := (Nat.pow_add 2 8 other).symm
      _ ≤ 2 ^ shift := Nat.pow_le_pow_right (by decide) (by omega)
    rw [Nat.div_eq_of_lt small]

theorem channelBits {shift : Nat} (low : shift ≤ 24) (pixel : UInt32) (i : Nat) :
    (channel pixel shift 255).testBit i = (decide (i < 8) && pixel.toNat.testBit (shift + i)) := by
  have byte : 255 = 2 ^ 8 - 1 := rfl
  rw [channelByte low,show 256 = 2 ^ 8 from rfl,Nat.testBit_mod_two_pow,Nat.testBit_div_two_pow,
    Nat.add_comm i]

theorem maskBits {shift : Nat} (low : shift ≤ 24) (i : Nat) :
    (shiftUp 255 shift).toNat.testBit i = decide (shift ≤ i ∧ i < shift + 8) := by
  have place : (shiftUp 255 shift).toNat = 2 ^ shift * 255 := by
    have up := shiftUpNat low 255
    rw [Nat.mul_comm] at up
    exact up
  have ones (j : Nat) : (255 : Nat).testBit j = decide (j < 8) := Nat.testBit_two_pow_sub_one 8 j
  rw [place,Nat.testBit_two_pow_mul,ones]
  by_cases above : shift ≤ i
  · have same : i - shift < 8 ↔ i < shift + 8 := by omega
    simp [above,same]
  · simp [above]

/- A channel masked in its place and then shifted down. -/
theorem maskedChannel {shift : Nat} (low : shift ≤ 24) (pixel : UInt32) :
    ((pixel &&& shiftUp 255 shift) >>> UInt32.ofNat shift).toNat = channel pixel shift 255 := by
  have small : (UInt32.ofNat shift).toNat % 32 = shift := by
    rw [UInt32.toNat_ofNat']
    omega
  apply Nat.eq_of_testBit_eq
  intro i
  rw [channelBits low,UInt32.toNat_shiftRight,small,UInt32.toNat_and,Nat.testBit_shiftRight,Nat.testBit_and,
    maskBits low]
  have inside : shift ≤ shift + i ∧ shift + i < shift + 8 ↔ i < 8 := by omega
  rw [decide_eq_decide.mpr inside,Bool.and_comm]

/- Eight-bit channels in any format. -/
structure RgbBytes (pf : PixelFormat) : Prop where
  red : pf.redMax = 255
  green : pf.greenMax = 255
  blue : pf.blueMax = 255
  redLow : pf.redShift ≤ 24
  greenLow : pf.greenShift ≤ 24
  blueLow : pf.blueShift ≤ 24

/- They do not overlap, nor with a byte of alpha if the format has any. -/
structure RgbFormat (pf : PixelFormat) : Prop extends RgbBytes pf where
  redGreen : Apart pf.redShift pf.greenShift
  redBlue : Apart pf.redShift pf.blueShift
  greenBlue : Apart pf.greenShift pf.blueShift
  alpha : pf.alphaMax = 0 ∨ (pf.alphaShift ≤ 24 ∧ Apart pf.redShift pf.alphaShift ∧
    Apart pf.greenShift pf.alphaShift ∧ Apart pf.blueShift pf.alphaShift)

namespace RgbBytes
variable {pf : PixelFormat} (h : RgbBytes pf)
include h

theorem redChannel (pixel : UInt32) : pf.red pixel = channel pixel pf.redShift 255 := by
  rw [PixelFormat.red,h.red]

theorem greenChannel (pixel : UInt32) : pf.green pixel = channel pixel pf.greenShift 255 := by
  rw [PixelFormat.green,h.green]

theorem blueChannel (pixel : UInt32) : pf.blue pixel = channel pixel pf.blueShift 255 := by
  rw [PixelFormat.blue,h.blue]

end RgbBytes

namespace RgbFormat
variable {pf : PixelFormat} (h : RgbFormat pf)
include h

theorem assembleChannels (r g b : UInt8) :
    pf.red (pf.assemble r.toUInt32 g.toUInt32 b.toUInt32) = r.toNat ∧
    pf.green (pf.assemble r.toUInt32 g.toUInt32 b.toUInt32) = g.toNat ∧
    pf.blue (pf.assemble r.toUInt32 g.toUInt32 b.toUInt32) = b.toNat := by
  have apart {shift other : Nat} (h : Apart shift other) : Apart other shift := h.symm
  rw [h.redChannel,h.greenChannel,h.blueChannel]
  simp only [PixelFormat.assemble,channelOr]
  refine ⟨?_,?_,?_⟩
  · rw [channelShiftUp h.redLow,channelApart h.redLow h.greenLow h.redGreen,
      channelApart h.redLow h.blueLow h.redBlue]
    simp
  · rw [channelShiftUp h.greenLow,channelApart h.greenLow h.redLow (apart h.redGreen),
      channelApart h.greenLow h.blueLow h.greenBlue]
    simp
  · rw [channelShiftUp h.blueLow,channelApart h.blueLow h.redLow (apart h.redBlue),
      channelApart h.blueLow h.greenLow (apart h.greenBlue)]
    simp

/- The channels of a pixel made of a colour are those of the colour. -/
theorem pixelChannels (col : Color) : pf.red (pf.pixel col) = col.r.toNat ∧
    pf.green (pf.pixel col) = col.g.toNat ∧ pf.blue (pf.pixel col) = col.b.toNat := by
  have whole (value : UInt8) (max : Nat) : PixelFormat.scaled value max 255 = value.toUInt32 := by
    rw [PixelFormat.scaled]
    split
    · rfl
    · have low := value.toNat_lt
      apply UInt32.toNat_inj.mp
      rw [Nat.mul_div_cancel _ (by decide : 0 < 255),UInt32.toNat_ofNat',UInt8.toNat_toUInt32]
      omega
  obtain ⟨red,green,blue⟩ := h.assembleChannels col.r col.g col.b
  rw [h.redChannel] at red
  rw [h.greenChannel] at green
  rw [h.blueChannel] at blue
  rw [PixelFormat.pixel,h.red,h.green,h.blue]
  simp only [whole]
  by_cases none : pf.alphaMax = 0
  · rw [if_neg (not_not.mpr none),h.redChannel,h.greenChannel,h.blueChannel]
    exact ⟨red,green,blue⟩
  · obtain ⟨low,redApart,greenApart,blueApart⟩ := h.alpha.resolve_left none
    rw [if_pos none,PixelFormat.assembleAlpha,h.redChannel,h.greenChannel,h.blueChannel]
    simp only [channelOr _ (pf.assemble _ _ _),channelApart h.redLow low redApart,
      channelApart h.greenLow low greenApart,channelApart h.blueLow low blueApart,red,green,blue,Nat.zero_or,
      and_self]

end RgbFormat

namespace ByteFormat
variable (f : ByteFormat)

theorem rgb : RgbFormat f.toPixelFormat :=
  ⟨⟨f.redByte,f.greenByte,f.blueByte,f.redLow,f.greenLow,f.blueLow⟩,f.redGreen,f.redBlue,f.greenBlue,
    .inl f.alphaNone⟩

theorem redChannel (pixel : UInt32) : f.red pixel = channel pixel f.redShift 255 := f.rgb.redChannel pixel

theorem greenChannel (pixel : UInt32) : f.green pixel = channel pixel f.greenShift 255 :=
  f.rgb.greenChannel pixel

theorem blueChannel (pixel : UInt32) : f.blue pixel = channel pixel f.blueShift 255 := f.rgb.blueChannel pixel

/- A channel as the byte it is. -/
def byteAt (pixel : UInt32) (shift : Nat) : UInt8 := UInt8.ofNat (channel pixel shift 255)

theorem channelSmall (pixel : UInt32) (shift : Nat) : channel pixel shift 255 < 256 := by
  have bound := Nat.and_le_right (n := (pixel >>> UInt32.ofNat shift).toNat) (m := 255)
  unfold channel
  omega

theorem byteAtNat (pixel : UInt32) (shift : Nat) : (byteAt pixel shift).toNat = channel pixel shift 255 := by
  rw [byteAt,UInt8.toNat_ofNat',Nat.mod_eq_of_lt (channelSmall pixel shift)]

theorem byteAtWord (pixel : UInt32) (shift : Nat) :
    (byteAt pixel shift).toUInt32 = UInt32.ofNat (channel pixel shift 255) := by
  apply UInt32.toNat_inj.mp
  have small := channelSmall pixel shift
  rw [UInt8.toNat_toUInt32,byteAtNat,UInt32.toNat_ofNat']
  omega

theorem assembleChannels (r g b : UInt8) :
    f.red (f.assemble r.toUInt32 g.toUInt32 b.toUInt32) = r.toNat ∧
    f.green (f.assemble r.toUInt32 g.toUInt32 b.toUInt32) = g.toNat ∧
    f.blue (f.assemble r.toUInt32 g.toUInt32 b.toUInt32) = b.toNat := f.rgb.assembleChannels r g b

/- Between two such formats a rescaling only moves the channels. -/
theorem rescaleMoves (source f : ByteFormat) (pixel : UInt32) :
    rescale pixel source.toPixelFormat f.toPixelFormat =
      f.assemble (byteAt pixel source.redShift).toUInt32 (byteAt pixel source.greenShift).toUInt32
        (byteAt pixel source.blueShift).toUInt32 := by
  have none : source.alpha pixel = 0 := by simp [PixelFormat.alpha,channel,source.alphaNone]
  simp only [rescale,convertChannel,none,source.alphaNone,f.alphaNone,source.redByte,f.redByte,
    source.greenByte,f.greenByte,source.blueByte,f.blueByte,if_true,byteAtWord,PixelFormat.assembleAlpha,
    source.redChannel,source.greenChannel,source.blueChannel]
  simp [shiftUp]

theorem compareShifts {source f : ByteFormat} : source.compare f.toPixelFormat true = true ↔
    source.redShift = f.redShift ∧ source.greenShift = f.greenShift ∧ source.blueShift = f.blueShift := by
  simp [PixelFormat.compare,source.bits,f.bits,source.redByte,f.redByte,source.greenByte,f.greenByte,
    source.blueByte,f.blueByte,and_assoc]

end ByteFormat
end Ltsm.PixelFormats
