import Ltsm.PixelFormats

/-! Pixels turned from one format into another, for channels of any width: the four
channels alike, each with its maximum and its shift. -/
namespace Ltsm.FormatConversions
open PixelFormats

inductive Channel
  | red
  | green
  | blue
  | alpha
  deriving DecidableEq, Repr

end Ltsm.FormatConversions

namespace Ltsm.PixelFormats.PixelFormat
open FormatConversions
variable (pf : PixelFormat)

def maxOf : Channel → Nat
  | .red => pf.redMax
  | .green => pf.greenMax
  | .blue => pf.blueMax
  | .alpha => pf.alphaMax

def shiftOf : Channel → Nat
  | .red => pf.redShift
  | .green => pf.greenShift
  | .blue => pf.blueShift
  | .alpha => pf.alphaShift

def maskOf : Channel → UInt32
  | .red => pf.rmask
  | .green => pf.gmask
  | .blue => pf.bmask
  | .alpha => pf.amask

def valueOf (pixel : UInt32) : Channel → Nat
  | .red => pf.red pixel
  | .green => pf.green pixel
  | .blue => pf.blue pixel
  | .alpha => pf.alpha pixel

/- A value in the place of its channel. -/
def place (c : Channel) (value : Nat) : UInt32 := shiftUp (UInt32.ofNat value) (pf.shiftOf c)

theorem maskOfPlace (c : Channel) : pf.maskOf c = pf.place c (pf.maxOf c) := by
  cases c <;> rfl

theorem valueOfChannel (pixel : UInt32) (c : Channel) :
    pf.valueOf pixel c = channel pixel (pf.shiftOf c) (pf.maxOf c) := by
  cases c <;> rfl

end Ltsm.PixelFormats.PixelFormat

namespace Ltsm.FormatConversions
open PixelFormats

/- Maxima of whole bits, shifts within the word and masks that share no bit. -/
structure Regular (pf : PixelFormat) : Prop where
  maxima : ∀ c, ∃ k ≤ 16, pf.maxOf c = 2 ^ k - 1
  shifts : ∀ c, pf.shiftOf c < 32
  apart : ∀ c d, c ≠ d → pf.maskOf c &&& pf.maskOf d = 0

/- No channel reaches out of the word. -/
def Inside (pf : PixelFormat) : Prop := ∀ c, pf.maxOf c <<< pf.shiftOf c < 2 ^ 32

/- The value that a channel should have in the second format. Where only the second one
has an alpha channel and all else is alike, its pixels are opaque. -/
def converted (pf1 pf2 : PixelFormat) (pixel : UInt32) (c : Channel) : Nat :=
  if c = .alpha ∧ pf2.compare pf1 true ∧ pf1.alphaMax = 0 then pf2.alphaMax
  else pf1.valueOf pixel c * (pf2.maxOf c + 1) / (pf1.maxOf c + 1)

/-! Bits of words. -/

def bit (word : UInt32) (i : Nat) : Bool := word.toBitVec.getLsbD i

theorem bitNat (word : UInt32) (i : Nat) : word.toNat.testBit i = bit word i := BitVec.testBit_toNat _

theorem bitAnd (x y : UInt32) (i : Nat) : bit (x &&& y) i = (bit x i && bit y i) := BitVec.getLsbD_and

theorem bitOr (x y : UInt32) (i : Nat) : bit (x ||| y) i = (bit x i || bit y i) := BitVec.getLsbD_or

theorem bitNot (x : UInt32) (i : Nat) : bit (~~~x) i = (decide (i < 32) && !bit x i) := BitVec.getLsbD_not

theorem bitZero (i : Nat) : bit 0 i = false := BitVec.getLsbD_zero

theorem bitHigh (word : UInt32) {i : Nat} (high : 32 ≤ i) : bit word i = false :=
  BitVec.getLsbD_of_ge _ _ high

theorem sameBits {x y : UInt32} (same : ∀ i < 32, bit x i = bit y i) : x = y :=
  UInt32.eq_of_toBitVec_eq (BitVec.eq_of_getLsbD_eq same)

theorem bitPlace {pf : PixelFormat} {c : Channel} {value : Nat} (low : pf.shiftOf c < 32) (small : value < 65536)
    (i : Nat) : bit (pf.place c value) i =
      (decide (i < 32) && (decide (pf.shiftOf c ≤ i) && value.testBit (i - pf.shiftOf c))) := by
  have shift : (UInt32.ofNat (pf.shiftOf c)).toNat % 32 = pf.shiftOf c := by
    rw [UInt32.toNat_ofNat']
    omega
  have whole : (UInt32.ofNat value).toNat = value := by
    rw [UInt32.toNat_ofNat']
    omega
  rw [← bitNat,PixelFormat.place,shiftUp,UInt32.toNat_shiftLeft,shift,whole,Nat.testBit_mod_two_pow,
    Nat.testBit_shiftLeft]

theorem bitValue {pf : PixelFormat} {c : Channel} (low : pf.shiftOf c < 32) (pixel : UInt32) (j : Nat) :
    (pf.valueOf pixel c).testBit j = (bit pixel (pf.shiftOf c + j) && (pf.maxOf c).testBit j) := by
  have shift : (UInt32.ofNat (pf.shiftOf c)).toNat % 32 = pf.shiftOf c := by
    rw [UInt32.toNat_ofNat']
    omega
  rw [PixelFormat.valueOfChannel,channel,Nat.testBit_and,UInt32.toNat_shiftRight,shift,Nat.testBit_shiftRight,bitNat]

theorem valueSmall (pf : PixelFormat) (pixel : UInt32) (c : Channel) : pf.valueOf pixel c ≤ pf.maxOf c := by
  rw [PixelFormat.valueOfChannel]
  exact Nat.and_le_right

/-! A format whose channels are regular. -/
section
variable {pf : PixelFormat} (regular : Regular pf)
include regular

theorem maxSmall (c : Channel) : pf.maxOf c < 65536 := by
  obtain ⟨k,low,max⟩ := regular.maxima c
  have power := Nat.pow_le_pow_right (show 0 < 2 by decide) low
  have positive := Nat.two_pow_pos k
  omega

/- A value up to the maximum has bits only where the maximum has. -/
theorem valueBits {c : Channel} {value j : Nat} (small : value ≤ pf.maxOf c) (set : value.testBit j = true) :
    (pf.maxOf c).testBit j = true := by
  obtain ⟨k,_,max⟩ := regular.maxima c
  rw [max,Nat.testBit_two_pow_sub_one,decide_eq_true_iff]
  by_contra high
  have least := Nat.ge_two_pow_of_testBit set
  have power := Nat.pow_le_pow_right (show 0 < 2 by decide) (Nat.le_of_not_lt high)
  have positive := Nat.two_pow_pos k
  omega

theorem placeHome {c : Channel} {value : Nat} (small : value ≤ pf.maxOf c) :
    pf.place c value &&& pf.maskOf c = pf.place c value := by
  have max := maxSmall regular c
  refine sameBits fun i _ => ?_
  rw [bitAnd,PixelFormat.maskOfPlace,bitPlace (regular.shifts c) max,bitPlace (regular.shifts c) (by omega)]
  by_cases set : value.testBit (i - pf.shiftOf c) = true
  · rw [set,valueBits regular small set,Bool.and_self]
  · rw [Bool.eq_false_iff.mpr set,Bool.and_false,Bool.and_false,Bool.false_and]

theorem placeForeign {c d : Channel} {value : Nat} (small : value ≤ pf.maxOf c) (other : c ≠ d) :
    pf.place c value &&& pf.maskOf d = 0 := by
  refine sameBits fun i _ => ?_
  have home := congrArg (bit · i) (placeHome regular small)
  have apart := congrArg (bit · i) (regular.apart c d other)
  simp only [bitAnd,bitZero] at home apart ⊢
  rw [← home,Bool.and_assoc,apart,Bool.and_false]

/- What a word has under the mask of a channel is the value of the channel in its place. -/
theorem underMask (pixel : UInt32) (c : Channel) : pixel &&& pf.maskOf c = pf.place c (pf.valueOf pixel c) := by
  have low := regular.shifts c
  have max := maxSmall regular c
  have small := valueSmall pf pixel c
  refine sameBits fun i inside => ?_
  rw [bitAnd,PixelFormat.maskOfPlace,bitPlace low max,bitPlace low (by omega),bitValue low]
  by_cases above : pf.shiftOf c ≤ i
  · rw [Nat.add_sub_cancel' above]
    simp [inside,above]
  · simp [above]

/- The value is read back if none of its bits has left the word. -/
theorem valueBack {c : Channel} {value : Nat} {word : UInt32} (small : value ≤ pf.maxOf c)
    (placed : word &&& pf.maskOf c = pf.place c value)
    (stays : ∀ j, value.testBit j = true → pf.shiftOf c + j < 32) : pf.valueOf word c = value := by
  have low := regular.shifts c
  have max := maxSmall regular c
  refine Nat.eq_of_testBit_eq fun j => ?_
  rw [bitValue low]
  by_cases inside : pf.shiftOf c + j < 32
  · have here := congrArg (bit · (pf.shiftOf c + j)) placed
    simp only [bitAnd,PixelFormat.maskOfPlace,bitPlace low max,bitPlace low (show value < 65536 by omega)] at here
    simpa [inside] using here
  · rw [bitHigh word (Nat.le_of_not_lt inside),Bool.false_and]
    by_contra set
    exact inside (stays j (by simpa using Ne.symm set))

/- All four channels, as they are put together. -/
theorem togetherPlaced {values : Channel → Nat} (small : ∀ c, values c ≤ pf.maxOf c) (c : Channel) :
    (pf.place .alpha (values .alpha) ||| (pf.place .red (values .red) ||| pf.place .green (values .green) |||
      pf.place .blue (values .blue))) &&& pf.maskOf c = pf.place c (values c) := by
  have home := placeHome regular (small c)
  have foreign (d : Channel) (other : d ≠ c) (i : Nat) :
      (bit (pf.place d (values d)) i && bit (pf.maskOf c) i) = false := by
    rw [← bitAnd,placeForeign regular (small d) other,bitZero]
  refine sameBits fun i _ => ?_
  have here := congrArg (bit · i) home
  simp only [bitAnd] at here
  simp only [bitAnd,bitOr,Bool.and_or_distrib_right]
  cases c with
  | red =>
    rw [foreign .alpha (by decide),foreign .green (by decide),foreign .blue (by decide),here]
    simp
  | green =>
    rw [foreign .alpha (by decide),foreign .red (by decide),foreign .blue (by decide),here]
    simp
  | blue =>
    rw [foreign .alpha (by decide),foreign .red (by decide),foreign .green (by decide),here]
    simp
  | alpha =>
    rw [foreign .red (by decide),foreign .green (by decide),foreign .blue (by decide),here]
    simp

/- They have no bit outside the masks. -/
theorem togetherOutside {values : Channel → Nat} (small : ∀ c, values c ≤ pf.maxOf c) {i : Nat}
    (outside : ∀ c, bit (pf.maskOf c) i = false) :
    bit (pf.place .alpha (values .alpha) ||| (pf.place .red (values .red) ||| pf.place .green (values .green) |||
      pf.place .blue (values .blue))) i = false := by
  have none (c : Channel) : bit (pf.place c (values c)) i = false := by
    rw [← placeHome regular (small c),bitAnd,outside c,Bool.and_false]
  simp only [bitOr,none,Bool.or_self]

end

/-! The arithmetic of a channel. -/

theorem scaledSmall {value a b : Nat} (low : value ≤ 2 ^ a - 1) : value * 2 ^ b / 2 ^ a ≤ 2 ^ b - 1 := by
  have positive := Nat.two_pow_pos a
  have wide := Nat.two_pow_pos b
  have less : value * 2 ^ b < 2 ^ b * 2 ^ a := by
    rw [Nat.mul_comm]
    exact Nat.mul_lt_mul_of_pos_left (by omega) wide
  have quotient := (Nat.div_lt_iff_lt_mul positive).mpr less
  omega

/- Scaled up and down again. -/
theorem scaledBack {value a b : Nat} (wider : a ≤ b) : value * 2 ^ b / 2 ^ a * 2 ^ a / 2 ^ b = value := by
  have whole : value * 2 ^ b / 2 ^ a * 2 ^ a = value * 2 ^ b :=
    Nat.div_mul_cancel ((Nat.pow_dvd_pow 2 wider).mul_left value)
  rw [whole,Nat.mul_div_cancel _ (Nat.two_pow_pos b)]

theorem wrapIntSmall {n : Nat} (small : n < 2147483648) : wrapInt n = n := by
  unfold wrapInt
  rw [Int.bmod_def]
  split <;> omega

theorem wordOfInt {n : Nat} (small : n < 4294967296) : UInt32.ofInt n = UInt32.ofNat n := by
  have low : ((n : Int) % 2 ^ 32).toNat = n := by omega
  rw [UInt32.ofInt,low]

/- The product stays within an `int`. -/
theorem convertChannelNat {value max1 max2 a b : Nat} (one : max1 = 2 ^ a - 1) (two : max2 = 2 ^ b - 1)
    (lowOne : a ≤ 16) (lowTwo : b ≤ 16) (small : value ≤ max1) :
    convertChannel value max1 max2 = UInt32.ofNat (value * (max2 + 1) / (max1 + 1)) := by
  have wide := Nat.two_pow_pos a
  have high := Nat.two_pow_pos b
  unfold convertChannel
  by_cases same : max1 = max2
  · rw [if_pos same,same,Nat.mul_div_cancel _ (Nat.succ_pos _)]
  · rw [if_neg same,convertMax]
    by_cases none : max1 = 0
    · have zero : value = 0 := by omega
      rw [if_pos none,zero,Nat.zero_mul,Nat.zero_div]
      rfl
    · have apart : a + b ≤ 31 := by
        by_contra both
        obtain rfl : a = b := by omega
        exact same (one.trans two.symm)
      have room : value * (max2 + 1) < 2147483648 := calc
        value * (max2 + 1) < 2 ^ a * 2 ^ b := by
          rw [two,Nat.sub_add_cancel high]
          exact Nat.mul_lt_mul_of_pos_right (by omega) high
        _ = 2 ^ (a + b) := (Nat.pow_add 2 a b).symm
        _ ≤ 2147483648 := Nat.pow_le_pow_right (show 0 < 2 by decide) apart
      have cast : (value : Int) * (max2 + 1) = (value * (max2 + 1) : Nat) := by push_cast; ring
      rw [if_neg none,cast]
      generalize value * (max2 + 1) = product at room ⊢
      have quotient : (product : Int).tdiv (max1 + 1) = (product / (max1 + 1) : Nat) :=
        (Int.ofNat_tdiv product (max1 + 1)).symm
      have less := Nat.div_le_self product (max1 + 1)
      rw [wrapIntSmall room,quotient,wordOfInt (by omega)]

/-! One conversion. -/
section
variable {pf1 pf2 : PixelFormat} {pixel : UInt32}

theorem convertedSmall (one : Regular pf1) (two : Regular pf2) (c : Channel) :
    converted pf1 pf2 pixel c ≤ pf2.maxOf c := by
  unfold converted
  split
  · rename_i opaque_
    rw [opaque_.1]
    exact le_rfl
  · obtain ⟨a,_,max1⟩ := one.maxima c
    obtain ⟨b,_,max2⟩ := two.maxima c
    have small := valueSmall pf1 pixel c
    rw [max1] at small
    rw [max1,max2,Nat.sub_add_cancel (Nat.two_pow_pos a),Nat.sub_add_cancel (Nat.two_pow_pos b)]
    exact scaledSmall small

theorem noneValue (pf : PixelFormat) (pixel : UInt32) {c : Channel} (none : pf.maxOf c = 0) :
    pf.valueOf pixel c = 0 := by
  have small := valueSmall pf pixel c
  omega

/- A channel with the same maximum in both formats keeps its value. -/
theorem convertedSame {c : Channel} (same : pf2.maxOf c = pf1.maxOf c) :
    converted pf1 pf2 pixel c = pf1.valueOf pixel c := by
  unfold converted
  split
  · rename_i opaque_
    obtain ⟨rfl,_,none⟩ := opaque_
    have noneToo : pf2.alphaMax = 0 := same.trans none
    rw [noneToo,noneValue pf1 pixel (c := .alpha) none]
  · rw [same,Nat.mul_div_cancel _ (Nat.succ_pos _)]

/- Formats alike but for the alpha channel. -/
theorem compareChannels (alike : pf2.compare pf1 true = true) {c : Channel} (colour : c ≠ .alpha) :
    pf2.maxOf c = pf1.maxOf c ∧ pf2.shiftOf c = pf1.shiftOf c := by
  simp only [PixelFormat.compare,Bool.and_eq_true,decide_eq_true_eq,Bool.true_or,Bool.and_true] at alike
  obtain ⟨⟨_,⟨maxRed,maxGreen⟩,maxBlue⟩,⟨shiftRed,shiftGreen⟩,shiftBlue⟩ := alike
  cases c with
  | red => exact ⟨maxRed,shiftRed⟩
  | green => exact ⟨maxGreen,shiftGreen⟩
  | blue => exact ⟨maxBlue,shiftBlue⟩
  | alpha => exact absurd rfl colour

/- What a conversion has to come to: each value under the mask of its own channel, and
outside of the masks nothing that was not there. -/
structure Converted (pf1 pf2 : PixelFormat) (pixel result : UInt32) : Prop where
  small : ∀ c, converted pf1 pf2 pixel c ≤ pf2.maxOf c
  own : ∀ c, pf2.place c (converted pf1 pf2 pixel c) &&& ~~~pf2.maskOf c = 0
  placed : ∀ c, result &&& pf2.maskOf c = pf2.place c (converted pf1 pf2 pixel c)
  outside : ∀ i, (∀ c, bit (pf2.maskOf c) i = false) → bit result i = true → bit pixel i = true

theorem placeOwn (two : Regular pf2) {c : Channel} {value : Nat} (small : value ≤ pf2.maxOf c) :
    pf2.place c value &&& ~~~pf2.maskOf c = 0 := by
  refine sameBits fun i inside => ?_
  rw [← placeHome two small]
  simp only [bitAnd,bitNot,bitZero]
  cases bit (pf2.maskOf c) i
  · simp
  · simp

theorem rescaleConverted (one : Regular pf1) (two : Regular pf2)
    (plain : ¬(pf2.compare pf1 true = true ∧ pf1.alphaMax = 0 ∧ pf2.alphaMax ≠ 0)) :
    Converted pf1 pf2 pixel (rescale pixel pf1 pf2) := by
  have small (c : Channel) := @convertedSmall pf1 pf2 pixel one two c
  have channels (c : Channel) : convertChannel (pf1.valueOf pixel c) (pf1.maxOf c) (pf2.maxOf c) =
      UInt32.ofNat (converted pf1 pf2 pixel c) := by
    obtain ⟨a,lowA,max1⟩ := one.maxima c
    obtain ⟨b,lowB,max2⟩ := two.maxima c
    rw [convertChannelNat max1 max2 lowA lowB (valueSmall pf1 pixel c),converted]
    split
    · rename_i opaque_
      obtain ⟨rfl,alike,none⟩ := opaque_
      have noneToo : pf2.alphaMax = 0 := by
        by_contra some
        exact plain ⟨alike,none,some⟩
      rw [noneValue pf1 pixel (c := .alpha) none,Nat.zero_mul,Nat.zero_div,noneToo]
    · rfl
  have together : rescale pixel pf1 pf2 = pf2.place .alpha (converted pf1 pf2 pixel .alpha) |||
      (pf2.place .red (converted pf1 pf2 pixel .red) ||| pf2.place .green (converted pf1 pf2 pixel .green) |||
        pf2.place .blue (converted pf1 pf2 pixel .blue)) := by
    simp only [PixelFormat.place,← channels]
    rfl
  refine ⟨small,fun c => placeOwn two (small c),fun c => ?_,fun i outside set => ?_⟩
  · rw [together]
    exact togetherPlaced two small c
  · rw [together,togetherOutside two small outside] at set
    cases set

/- A word that has the pixel's bits under the masks. -/
theorem maskedConverted (two : Regular pf2) {result : UInt32} {c : Channel}
    (maxSame : pf2.maxOf c = pf1.maxOf c) (shiftSame : pf2.shiftOf c = pf1.shiftOf c)
    (kept : result &&& pf2.maskOf c = pixel &&& pf2.maskOf c) :
    result &&& pf2.maskOf c = pf2.place c (converted pf1 pf2 pixel c) := by
  have value : pf2.valueOf pixel c = pf1.valueOf pixel c := by
    rw [PixelFormat.valueOfChannel,PixelFormat.valueOfChannel,maxSame,shiftSame]
  rw [kept,underMask two,convertedSame maxSame,value]

/- The colours of formats that are alike. -/
theorem coloursConverted (two : Regular pf2) (alike : pf2.compare pf1 true = true) {result : UInt32} {c : Channel}
    (colour : c ≠ .alpha) (kept : result &&& pf2.maskOf c = pixel &&& pf2.maskOf c) :
    result &&& pf2.maskOf c = pf2.place c (converted pf1 pf2 pixel c) := by
  obtain ⟨max,shift⟩ := compareChannels alike colour
  exact maskedConverted two max shift kept

/- The pixel as it is. -/
theorem sameConverted (one : Regular pf1) (two : Regular pf2) (alike : pf2.compare pf1 true = true)
    (same : pf2.alphaMax = pf1.alphaMax ∧ pf2.alphaShift = pf1.alphaShift) :
    Converted pf1 pf2 pixel pixel := by
  have small (c : Channel) := @convertedSmall pf1 pf2 pixel one two c
  refine ⟨small,fun c => placeOwn two (small c),fun c => ?_,fun i _ set => set⟩
  by_cases colour : c = .alpha
  · subst colour
    exact maskedConverted two same.1 same.2 rfl
  · exact coloursConverted two alike colour rfl

/- The pixel without its alpha channel. -/
theorem droppedConverted (one : Regular pf1) (two : Regular pf2) (alike : pf2.compare pf1 true = true)
    (none : pf2.alphaMax = 0) : Converted pf1 pf2 pixel (~~~pf1.amask &&& pixel) := by
  have small (c : Channel) := @convertedSmall pf1 pf2 pixel one two c
  have alpha : pf1.amask = pf1.maskOf .alpha := rfl
  rw [alpha]
  refine ⟨small,fun c => placeOwn two (small c),fun c => ?_,fun i _ set => ?_⟩
  · by_cases colour : c = .alpha
    · subst colour
      have nothing : converted pf1 pf2 pixel .alpha = 0 := Nat.le_zero.mp (none ▸ small .alpha)
      have mask : pf2.maskOf .alpha = pf2.place .alpha 0 := by
        rw [PixelFormat.maskOfPlace]
        exact congrArg _ none
      have zero : pf2.place .alpha 0 = 0 := UInt32.zero_shiftLeft
      rw [nothing,mask,zero,UInt32.and_zero]
    · refine coloursConverted two alike colour (sameBits fun i inside => ?_)
      have apart := congrArg (bit · i) (one.apart c .alpha colour)
      have mask : pf2.maskOf c = pf1.maskOf c := by
        obtain ⟨max,shift⟩ := compareChannels alike colour
        rw [PixelFormat.maskOfPlace,PixelFormat.maskOfPlace,PixelFormat.place,PixelFormat.place,max,shift]
      rw [mask]
      simp only [bitAnd,bitNot,bitZero] at apart ⊢
      cases here : bit (pf1.maskOf c) i
      · simp
      · rw [here,Bool.true_and] at apart
        simp [apart,inside]
  · rw [bitAnd] at set
    exact (Bool.and_eq_true_iff.mp set).2

/- The pixel with all of the alpha channel. -/
theorem opaqueConverted (one : Regular pf1) (two : Regular pf2) (alike : pf2.compare pf1 true = true)
    (none : pf1.alphaMax = 0) : Converted pf1 pf2 pixel (pf2.amask ||| pixel) := by
  have small (c : Channel) := @convertedSmall pf1 pf2 pixel one two c
  have alpha : pf2.amask = pf2.maskOf .alpha := rfl
  rw [alpha]
  refine ⟨small,fun c => placeOwn two (small c),fun c => ?_,fun i outside set => ?_⟩
  · by_cases colour : c = .alpha
    · subst colour
      have full : converted pf1 pf2 pixel .alpha = pf2.maxOf .alpha := if_pos ⟨rfl,alike,none⟩
      rw [full,← PixelFormat.maskOfPlace]
      refine sameBits fun i _ => ?_
      rw [bitAnd,bitOr]
      cases bit (pf2.maskOf .alpha) i
      · simp
      · simp
    · refine coloursConverted two alike colour (sameBits fun i _ => ?_)
      have apart := congrArg (bit · i) (two.apart .alpha c (Ne.symm colour))
      simp only [bitAnd,bitOr,bitZero] at apart ⊢
      rw [Bool.and_or_distrib_right,apart,Bool.false_or]
  · rw [bitOr,outside .alpha,Bool.false_or] at set
    exact set

theorem convertPlaced (one : Regular pf1) (two : Regular pf2) (pixel : UInt32) :
    Converted pf1 pf2 pixel (convertPixelFromTo pixel pf1 pf2) := by
  unfold convertPixelFromTo
  by_cases alike : pf2.compare pf1 true = true
  · rw [if_pos alike]
    by_cases same : pf2.alphaMax = pf1.alphaMax ∧ pf2.alphaShift = pf1.alphaShift
    · rw [if_pos same]
      exact sameConverted one two alike same
    · rw [if_neg same]
      by_cases dropped : pf2.alphaMax = 0 ∧ pf1.alphaMax ≠ 0
      · rw [if_pos dropped]
        exact droppedConverted one two alike dropped.1
      · rw [if_neg dropped]
        by_cases opaque_ : pf2.alphaMax ≠ 0 ∧ pf1.alphaMax = 0
        · rw [if_pos opaque_]
          exact opaqueConverted one two alike opaque_.2
        · rw [if_neg opaque_]
          exact rescaleConverted one two fun all => opaque_ ⟨all.2.2,all.2.1⟩
  · rw [if_neg alike]
    exact rescaleConverted one two fun all => alike all.1

/- A value that is whole in the word is read back from the converted pixel. -/
theorem convertedRead (one : Regular pf1) (two : Regular pf2) (inside : Inside pf2) (pixel : UInt32) (c : Channel) :
    pf2.valueOf (convertPixelFromTo pixel pf1 pf2) c = converted pf1 pf2 pixel c := by
  have result := convertPlaced one two pixel
  refine valueBack two (result.small c) (result.placed c) fun j set => ?_
  have least := Nat.ge_two_pow_of_testBit (valueBits two (result.small c) set)
  have room := inside c
  rw [Nat.shiftLeft_eq] at room
  have power : 2 ^ (pf2.shiftOf c + j) < 2 ^ 32 := calc
    2 ^ (pf2.shiftOf c + j) = 2 ^ j * 2 ^ pf2.shiftOf c := by rw [Nat.add_comm,Nat.pow_add]
    _ ≤ pf2.maxOf c * 2 ^ pf2.shiftOf c := Nat.mul_le_mul_right _ least
    _ < 2 ^ 32 := room
  exact (Nat.pow_lt_pow_iff_right (by decide)).mp power

/- There and back again. -/
theorem convertBack (one : Regular pf1) (two : Regular pf2) (inside : Inside pf2)
    (wider : ∀ c, pf1.maxOf c ≤ pf2.maxOf c) (pixel : UInt32) (c : Channel) :
    pf1.valueOf (convertPixelFromTo (convertPixelFromTo pixel pf1 pf2) pf2 pf1) c = pf1.valueOf pixel c := by
  by_cases none : pf1.maxOf c = 0
  · rw [noneValue pf1 _ none,noneValue pf1 _ none]
  · have some : pf2.maxOf c ≠ 0 := fun zero => none (Nat.le_zero.mp (zero ▸ wider c))
    have there := convertedRead one two inside pixel c
    generalize convertPixelFromTo pixel pf1 pf2 = middle at there ⊢
    have plain : converted pf1 pf2 pixel c = pf1.valueOf pixel c * (pf2.maxOf c + 1) / (pf1.maxOf c + 1) :=
      if_neg (by rintro ⟨rfl,_,zero⟩; exact none zero)
    have back : converted pf2 pf1 middle c = pf2.valueOf middle c * (pf1.maxOf c + 1) / (pf2.maxOf c + 1) :=
      if_neg (by rintro ⟨rfl,_,zero⟩; exact some zero)
    have value : converted pf2 pf1 middle c = pf1.valueOf pixel c := by
      obtain ⟨a,_,max1⟩ := one.maxima c
      obtain ⟨b,_,max2⟩ := two.maxima c
      have narrow : a ≤ b := by
        have less := wider c
        have wide := Nat.two_pow_pos a
        rw [max1,max2] at less
        by_contra more
        have power := Nat.pow_lt_pow_right (show 1 < 2 by decide) (Nat.lt_of_not_le more)
        omega
      rw [back,there,plain,max1,max2,Nat.sub_add_cancel (Nat.two_pow_pos a),Nat.sub_add_cancel (Nat.two_pow_pos b)]
      exact scaledBack narrow
    have result := convertPlaced two one middle
    have placed := result.placed c
    rw [value] at placed
    refine valueBack one (valueSmall pf1 pixel c) placed fun j set => ?_
    -- a bit of the value was a bit of the pixel
    rw [bitValue (one.shifts c)] at set
    by_contra high
    rw [bitHigh pixel (Nat.le_of_not_lt high)] at set
    cases set

end

/- Every conversion puts the value of each channel under its mask and nothing beside the
masks; one to a format that has room for all its channels, none of them with a smaller
maximum, can be undone. -/
theorem conversionsKeep (pf1 pf2 : PixelFormat) (one : Regular pf1) (two : Regular pf2) (pixel : UInt32) :
    Converted pf1 pf2 pixel (convertPixelFromTo pixel pf1 pf2) ∧
    (Inside pf2 → (∀ c, pf1.maxOf c ≤ pf2.maxOf c) → ∀ c,
      pf1.valueOf (convertPixelFromTo (convertPixelFromTo pixel pf1 pf2) pf2 pf1) c = pf1.valueOf pixel c) :=
  ⟨convertPlaced one two pixel,fun inside wider c => convertBack one two inside wider pixel c⟩

def rgb565 : PixelFormat := ⟨31,63,31,0,11,5,0,0,16⟩
def argb32 : PixelFormat := ⟨255,255,255,255,16,8,0,24,32⟩

theorem regular565 : Regular rgb565 where
  maxima c := by
    cases c
    · exact ⟨5,by decide,rfl⟩
    · exact ⟨6,by decide,rfl⟩
    · exact ⟨5,by decide,rfl⟩
    · exact ⟨0,by decide,rfl⟩
  shifts c := by cases c <;> decide
  apart c d := by cases c <;> cases d <;> decide

theorem regularArgb : Regular argb32 where
  maxima c := ⟨8,by decide,by cases c <;> rfl⟩
  shifts c := by cases c <;> decide
  apart c d := by cases c <;> cases d <;> decide

theorem conversions565 : Converted rgb565 argb32 0xA53C (convertPixelFromTo 0xA53C rgb565 argb32) ∧
    ∀ c, rgb565.valueOf (convertPixelFromTo (convertPixelFromTo 0xA53C rgb565 argb32) argb32 rgb565) c =
      rgb565.valueOf 0xA53C c := by
  obtain ⟨there,back⟩ := conversionsKeep rgb565 argb32 regular565 regularArgb 0xA53C
  exact ⟨there,back (fun c => by cases c <;> decide) fun c => by cases c <;> decide⟩

/- One bit for each colour, and a format with all but one bit of its red channel above
the word. -/
def bits3 : PixelFormat := ⟨1,1,1,0,0,1,2,0,8⟩
def redAbove : PixelFormat := ⟨65535,1,1,0,31,0,1,0,32⟩

theorem redLost : bits3.valueOf 1 .red = 1 ∧
    bits3.valueOf (convertPixelFromTo (convertPixelFromTo 1 bits3 redAbove) redAbove bits3) .red = 0 ∧
    ¬∀ (pf1 pf2 : PixelFormat) (pixel : UInt32), Regular pf1 → Regular pf2 →
      (∀ c, pf1.maxOf c ≤ pf2.maxOf c) → ∀ c,
        pf1.valueOf (convertPixelFromTo (convertPixelFromTo pixel pf1 pf2) pf2 pf1) c = pf1.valueOf pixel c := by
  have one : Regular bits3 := by
    refine ⟨fun c => ?_,fun c => by cases c <;> decide,fun c d => by cases c <;> cases d <;> decide⟩
    cases c
    · exact ⟨1,by decide,rfl⟩
    · exact ⟨1,by decide,rfl⟩
    · exact ⟨1,by decide,rfl⟩
    · exact ⟨0,by decide,rfl⟩
  have two : Regular redAbove := by
    refine ⟨fun c => ?_,fun c => by cases c <;> decide,fun c d => by cases c <;> cases d <;> decide⟩
    cases c
    · exact ⟨16,by decide,rfl⟩
    · exact ⟨1,by decide,rfl⟩
    · exact ⟨1,by decide,rfl⟩
    · exact ⟨0,by decide,rfl⟩
  have lost : bits3.valueOf (convertPixelFromTo (convertPixelFromTo 1 bits3 redAbove) redAbove bits3) .red = 0 := by
    decide +kernel
  refine ⟨by decide,lost,fun all => ?_⟩
  have back := all bits3 redAbove 1 one two (fun c => by cases c <;> decide) .red
  rw [lost] at back
  revert back
  decide

end Ltsm.FormatConversions
