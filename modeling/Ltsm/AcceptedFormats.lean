import Mathlib.Data.List.Pairwise
import Mathlib.Data.Nat.Size
import Ltsm.FormatConversions
import Ltsm.PixelStreams

/-! What a client's SetPixelFormat leaves the server to encode with. The server looks at
the bits per pixel and that no maximum is zero; where the channels lie it takes as it
comes, and it shifts by it from then on. -/
namespace Ltsm.AcceptedFormats
open PixelFormats PixelStreams FormatConversions

/- std::countr_zero, which is 32 for a word without bits. -/
def countrZero (mask : UInt32) : Nat := (List.range 32).findIdx fun i => mask.toNat.testBit i

end Ltsm.AcceptedFormats

namespace Ltsm.PixelFormats.PixelFormat
open AcceptedFormats

/- The format of four masks. -/
def ofMasks (bpp : Nat) (rmask gmask bmask amask : UInt32) : PixelFormat :=
  let max (mask : UInt32) : Nat := (mask >>> UInt32.ofNat (countrZero mask)).toNat % 65536
  ⟨max rmask,max gmask,max bmask,max amask,countrZero rmask,countrZero gmask,countrZero bmask,countrZero amask,bpp⟩

/- A cursor is sent in the client's format with all bits that no colour has for alpha. -/
def clientAMask (pf : PixelFormat) : UInt32 := ~~~(pf.rmask ||| pf.gmask ||| pf.bmask)
def clientFormatAlpha (pf : PixelFormat) : PixelFormat :=
  ofMasks pf.bitsPixel pf.rmask pf.gmask pf.bmask pf.clientAMask

end Ltsm.PixelFormats.PixelFormat

namespace Ltsm.AcceptedFormats
open PixelFormats PixelStreams FormatConversions

/- A format that pixels can be encoded in: its channels lie in its bits and apart, and
all that is shifted by, for pixels and for cursors, is less than 32. -/
structure Encodable (pf : PixelFormat) : Prop where
  below : ∀ c, pf.shiftOf c < pf.bitsPixel
  fit : ∀ c, pf.maxOf c <<< pf.shiftOf c < 2 ^ pf.bitsPixel
  apart : ∀ c d, c ≠ d → pf.maxOf c <<< pf.shiftOf c &&& pf.maxOf d <<< pf.shiftOf d = 0
  filled : ∀ c, c ≠ .alpha → pf.maxOf c ≠ 0
  shifts : ∀ c, pf.shiftOf c < 32 ∧ pf.clientFormatAlpha.shiftOf c < 32

/- What the server looks at. -/
def Refused (msg : SetPixelFormat) : Prop :=
  (msg.bitsPerPixel ≠ 32 ∧ msg.bitsPerPixel ≠ 16 ∧ msg.bitsPerPixel ≠ 8) ∨
    msg.trueColor = 0 ∨ msg.redMax = 0 ∨ msg.greenMax = 0 ∨ msg.blueMax = 0
instance (msg) : Decidable (Refused msg) := by unfold Refused; infer_instance

/- The maxima with their shifts. -/
def colours (msg : SetPixelFormat) : List (Nat × Nat) :=
  [(msg.redMax.toNat,msg.redShift.toNat),(msg.greenMax.toNat,msg.greenShift.toNat),
    (msg.blueMax.toNat,msg.blueShift.toNat)]

def bitsOf (colour : Nat × Nat) : Nat := colour.1 <<< colour.2

/- What it would have to look at: the highest bit of each colour, the bits they share, and
that of 32 bits they do not take all. -/
structure Whole (msg : SetPixelFormat) : Prop where
  high : ∀ colour ∈ colours msg, colour.2 + Nat.size colour.1 ≤ msg.bitsPerPixel.toNat
  apart : (colours msg).Pairwise fun one other => bitsOf one &&& bitsOf other = 0
  spare : (colours msg).foldl (fun taken colour => taken ||| bitsOf colour) 0 ≠ 2 ^ 32 - 1

instance (msg) : Decidable (Whole msg) :=
  decidable_of_iff ((∀ colour ∈ colours msg, colour.2 + Nat.size colour.1 ≤ msg.bitsPerPixel.toNat) ∧
    ((colours msg).Pairwise fun one other => bitsOf one &&& bitsOf other = 0) ∧
    (colours msg).foldl (fun taken colour => taken ||| bitsOf colour) 0 ≠ 2 ^ 32 - 1)
    ⟨fun h => ⟨h.1,h.2.1,h.2.2⟩,fun h => ⟨h.high,h.apart,h.spare⟩⟩

/- The format of a message that is accepted. -/
def formatOf (msg : SetPixelFormat) : PixelFormat :=
  ⟨msg.redMax.toNat,msg.greenMax.toNat,msg.blueMax.toNat,0,msg.redShift.toNat,msg.greenShift.toNat,
    msg.blueShift.toNat,0,msg.bitsPerPixel.toNat⟩

theorem acceptedFormat {msg : SetPixelFormat} {st accepted : EncoderStream}
    (taken : recvPixelFormat msg st = some accepted) : ¬Refused msg ∧ accepted.clientFormat = formatOf msg := by
  unfold recvPixelFormat at taken
  split at taken
  · cases taken
  split at taken
  · cases taken
  rename_i width checks
  cases Option.some.inj taken
  exact ⟨not_or.mpr ⟨width,checks⟩,rfl⟩

theorem acceptedExists {msg : SetPixelFormat} (st : EncoderStream) (checked : ¬Refused msg) :
    ∃ accepted, recvPixelFormat msg st = some accepted := by
  obtain ⟨width,checks⟩ := not_or.mp checked
  exact ⟨_,by rw [recvPixelFormat,if_neg width,if_neg checks]⟩

theorem countrZeroLow {mask : UInt32} : countrZero mask < 32 ↔ mask ≠ 0 := by
  have some : (List.range 32).findIdx (fun i => mask.toNat.testBit i) < (List.range 32).length ↔
      ∃ i ∈ List.range 32, mask.toNat.testBit i = true := List.findIdx_lt_length
  rw [List.length_range] at some
  rw [countrZero,some]
  constructor
  · rintro ⟨i,_,set⟩ rfl
    simp at set
  · intro differs
    by_contra none
    refine differs (sameBits fun i low => ?_)
    rw [bitZero,← bitNat,Bool.eq_false_iff]
    exact fun set => none ⟨i,List.mem_range.mpr low,set⟩

/- A channel that stays within so many bits. -/
theorem staysIff {max shift bits : Nat} (some : max ≠ 0) :
    (shift < bits ∧ max <<< shift < 2 ^ bits) ↔ shift + Nat.size max ≤ bits := by
  rw [Nat.shiftLeft_eq]
  constructor
  · rintro ⟨below,fit⟩
    have split : 2 ^ bits = 2 ^ (bits - shift) * 2 ^ shift := by
      rw [← Nat.pow_add,Nat.sub_add_cancel (Nat.le_of_lt below)]
    rw [split] at fit
    have size := Nat.size_le.mpr (Nat.lt_of_mul_lt_mul_right fit)
    omega
  · intro high
    have positive := Nat.size_pos.mpr (Nat.pos_of_ne_zero some)
    refine ⟨by omega,?_⟩
    calc max * 2 ^ shift < 2 ^ Nat.size max * 2 ^ shift :=
          Nat.mul_lt_mul_of_pos_right (Nat.lt_size_self max) (Nat.two_pow_pos shift)
      _ = 2 ^ (shift + Nat.size max) := by rw [Nat.add_comm,Nat.pow_add]
      _ ≤ 2 ^ bits := Nat.pow_le_pow_right (by decide) high

/- A mask that stays within the word. -/
theorem maskNat {pf : PixelFormat} {c : Channel} (small : pf.maxOf c < 65536) (low : pf.shiftOf c < 32)
    (fit : pf.maxOf c <<< pf.shiftOf c < 2 ^ 32) : (pf.maskOf c).toNat = pf.maxOf c <<< pf.shiftOf c := by
  have shift : (UInt32.ofNat (pf.shiftOf c)).toNat % 32 = pf.shiftOf c := by
    rw [UInt32.toNat_ofNat']
    omega
  have whole : (UInt32.ofNat (pf.maxOf c)).toNat = pf.maxOf c := by
    rw [UInt32.toNat_ofNat']
    omega
  rw [PixelFormat.maskOfPlace,PixelFormat.place,shiftUp,UInt32.toNat_shiftLeft,shift,whole,Nat.mod_eq_of_lt fit]

theorem allTaken {taken : UInt32} : ~~~taken = 0 ↔ taken.toNat = 2 ^ 32 - 1 := by
  constructor
  · intro none
    refine Nat.eq_of_testBit_eq fun i => ?_
    have here := congrArg (bit · i) none
    simp only [bitNot,bitZero] at here
    rw [Nat.testBit_two_pow_sub_one,bitNat]
    by_cases low : i < 32
    · simpa [low] using here
    · rw [bitHigh taken (Nat.le_of_not_lt low),decide_eq_false low]
  · intro all
    refine sameBits fun i low => ?_
    rw [bitNot,bitZero,← bitNat,all,Nat.testBit_two_pow_sub_one,decide_eq_true low]
    rfl

section
variable {msg : SetPixelFormat}

/- The colours of a message are the colour channels of its format. -/
theorem colourListed {c : Channel} (colour : c ≠ .alpha) :
    ((formatOf msg).maxOf c,(formatOf msg).shiftOf c) ∈ colours msg := by
  cases c with
  | red => exact List.mem_cons_self
  | green => exact List.mem_cons_of_mem _ List.mem_cons_self
  | blue => exact List.mem_cons_of_mem _ (List.mem_cons_of_mem _ List.mem_cons_self)
  | alpha => exact absurd rfl colour

theorem eachColour {P : Nat × Nat → Prop} :
    (∀ colour ∈ colours msg, P colour) ↔
      ∀ c, c ≠ .alpha → P ((formatOf msg).maxOf c,(formatOf msg).shiftOf c) := by
  refine ⟨fun all c colour => all _ (colourListed colour),fun all => ?_⟩
  exact List.forall_mem_cons.mpr ⟨all .red (by decide),List.forall_mem_cons.mpr ⟨all .green (by decide),
    List.forall_mem_singleton.mpr (all .blue (by decide))⟩⟩

theorem checkedFormat (checked : ¬Refused msg) :
    8 ≤ (formatOf msg).bitsPixel ∧ (formatOf msg).bitsPixel ≤ 32 ∧
    (∀ c, c ≠ .alpha → (formatOf msg).maxOf c ≠ 0) ∧ ∀ c, (formatOf msg).maxOf c < 65536 := by
  obtain ⟨width,checks⟩ := not_or.mp checked
  simp only [not_or] at checks
  obtain ⟨_,red,green,blue⟩ := checks
  have bits : msg.bitsPerPixel = 32 ∨ msg.bitsPerPixel = 16 ∨ msg.bitsPerPixel = 8 := by
    by_contra other
    simp only [not_or] at other
    exact width other
  have some {max : UInt16} (differs : max ≠ 0) : max.toNat ≠ 0 := fun zero => differs (UInt16.toNat_inj.mp zero)
  refine ⟨?_,?_,fun c colour => ?_,fun c => ?_⟩
  · obtain bits | bits | bits := bits <;> simp [formatOf,bits]
  · obtain bits | bits | bits := bits <;> simp [formatOf,bits]
  · cases c with
    | red => exact some red
    | green => exact some green
    | blue => exact some blue
    | alpha => exact absurd rfl colour
  · cases c with
    | red => exact msg.redMax.toNat_lt
    | green => exact msg.greenMax.toNat_lt
    | blue => exact msg.blueMax.toNat_lt
    | alpha => exact Nat.zero_lt_succ _

/- The bits that the colours of a format take of the word. -/
theorem takenNat (small : ∀ c, (formatOf msg).maxOf c < 65536) (low : ∀ c, (formatOf msg).shiftOf c < 32)
    (fit : ∀ c, (formatOf msg).maxOf c <<< (formatOf msg).shiftOf c < 2 ^ 32) :
    ((formatOf msg).rmask ||| (formatOf msg).gmask ||| (formatOf msg).bmask).toNat =
      (colours msg).foldl (fun taken colour => taken ||| bitsOf colour) 0 := by
  have mask (c : Channel) := maskNat (small c) (low c) (fit c)
  have red : (formatOf msg).rmask.toNat = _ := mask .red
  have green : (formatOf msg).gmask.toNat = _ := mask .green
  have blue : (formatOf msg).bmask.toNat = _ := mask .blue
  rw [UInt32.toNat_or,UInt32.toNat_or,red,green,blue]
  simp only [colours,List.foldl_cons,List.foldl_nil,bitsOf,Nat.zero_or]
  rfl

theorem encodableWhole (checked : ¬Refused msg) (h : Encodable (formatOf msg)) : Whole msg := by
  obtain ⟨_,wide,filled,small⟩ := checkedFormat checked
  have inWord (c : Channel) : (formatOf msg).maxOf c <<< (formatOf msg).shiftOf c < 2 ^ 32 :=
    (h.fit c).trans_le (Nat.pow_le_pow_right (by decide) wide)
  refine ⟨eachColour.mpr fun c colour => (staysIff (filled c colour)).mp ⟨h.below c,h.fit c⟩,?_,fun all => ?_⟩
  · have redGreen := h.apart .red .green (by decide)
    have redBlue := h.apart .red .blue (by decide)
    have greenBlue := h.apart .green .blue (by decide)
    exact .cons (List.forall_mem_cons.mpr ⟨redGreen,List.forall_mem_singleton.mpr redBlue⟩)
      (.cons (List.forall_mem_singleton.mpr greenBlue) (List.pairwise_singleton _ _))
  · rw [← takenNat small (fun c => (h.shifts c).1) inWord] at all
    exact countrZeroLow.mp (h.shifts .alpha).2 (allTaken.mpr all)

theorem wholeEncodable (checked : ¬Refused msg) (h : Whole msg) : Encodable (formatOf msg) := by
  obtain ⟨narrow,wide,filled,small⟩ := checkedFormat checked
  have stays (c : Channel) : (formatOf msg).shiftOf c < (formatOf msg).bitsPixel ∧
      (formatOf msg).maxOf c <<< (formatOf msg).shiftOf c < 2 ^ (formatOf msg).bitsPixel := by
    by_cases colour : c = .alpha
    · subst colour
      exact ⟨by have zero : (formatOf msg).shiftOf .alpha = 0 := rfl; omega,Nat.two_pow_pos _⟩
    · exact (staysIff (filled c colour)).mpr (eachColour.mp h.high c colour)
  have low (c : Channel) : (formatOf msg).shiftOf c < 32 := (stays c).1.trans_le wide
  have inWord (c : Channel) : (formatOf msg).maxOf c <<< (formatOf msg).shiftOf c < 2 ^ 32 :=
    (stays c).2.trans_le (Nat.pow_le_pow_right (by decide) wide)
  refine ⟨fun c => (stays c).1,fun c => (stays c).2,fun c d other => ?_,filled,fun c => ⟨low c,?_⟩⟩
  · have none (x : Nat) : x &&& (formatOf msg).maxOf .alpha <<< (formatOf msg).shiftOf .alpha = 0 := Nat.and_zero x
    obtain ⟨red,rest⟩ := List.pairwise_cons.mp h.apart
    obtain ⟨green,_⟩ := List.pairwise_cons.mp rest
    let Away (c d : Channel) : Prop := (formatOf msg).maxOf c <<< (formatOf msg).shiftOf c &&&
      (formatOf msg).maxOf d <<< (formatOf msg).shiftOf d = 0
    have pairs : [Channel.red,.green,.blue,.alpha].Pairwise Away := by
      refine .cons (List.forall_mem_cons.mpr ⟨red _ List.mem_cons_self,List.forall_mem_cons.mpr
        ⟨red _ (List.mem_cons_of_mem _ List.mem_cons_self),List.forall_mem_singleton.mpr (none _)⟩⟩) ?_
      refine .cons (List.forall_mem_cons.mpr ⟨green _ List.mem_cons_self,List.forall_mem_singleton.mpr (none _)⟩) ?_
      exact .cons (List.forall_mem_singleton.mpr (none _)) (List.pairwise_singleton _ _)
    have listed (c : Channel) : c ∈ [Channel.red,.green,.blue,.alpha] := by cases c <;> simp
    have symm : Std.Symm Away := ⟨fun c d apart => (Nat.and_comm _ _).trans apart⟩
    exact pairs.forall (listed c) (listed d) other
  · have some (c : Channel) (colour : c ≠ .alpha) : (formatOf msg).maskOf c ≠ 0 := by
      intro none
      have zero := maskNat (small c) (low c) (inWord c)
      rw [none,Nat.shiftLeft_eq] at zero
      have positive := Nat.mul_pos (Nat.pos_of_ne_zero (filled c colour)) (Nat.two_pow_pos ((formatOf msg).shiftOf c))
      exact absurd zero (Nat.ne_of_lt positive)
    cases c with
    | red => exact countrZeroLow.mpr (some .red (by decide))
    | green => exact countrZeroLow.mpr (some .green (by decide))
    | blue => exact countrZeroLow.mpr (some .blue (by decide))
    | alpha =>
      refine countrZeroLow.mpr fun none => h.spare ?_
      rw [← takenNat small low inWord]
      exact allTaken.mp none

end

/- Whatever is accepted can be encoded with, if and only if the message is refused or its
colours are whole. -/
theorem acceptedIff (msg : SetPixelFormat) (st : EncoderStream) :
    (∀ accepted, recvPixelFormat msg st = some accepted → Encodable accepted.clientFormat) ↔
      Refused msg ∨ Whole msg := by
  constructor
  · intro all
    by_cases refused : Refused msg
    · exact .inl refused
    · obtain ⟨accepted,taken⟩ := acceptedExists st refused
      have encodable := all accepted taken
      rw [(acceptedFormat taken).2] at encodable
      exact .inr (encodableWhole refused encodable)
  · rintro either accepted taken
    obtain ⟨checked,same⟩ := acceptedFormat taken
    rw [same]
    exact wholeEncodable checked (either.resolve_left checked)

/- The red channel lies 255 bits up. -/
def farRed : SetPixelFormat := ⟨32,24,0,1,255,255,255,255,8,0⟩

theorem farRedAccepted : (∀ st, ∃ accepted, recvPixelFormat farRed st = some accepted ∧
      accepted.clientFormat.redShift = 255) ∧
    ¬∀ msg st accepted, recvPixelFormat msg st = some accepted → Encodable accepted.clientFormat := by
  have taken (st : EncoderStream) : ∃ accepted, recvPixelFormat farRed st = some accepted ∧
      accepted.clientFormat.redShift = 255 := by
    obtain ⟨accepted,taken⟩ := @acceptedExists farRed st (by decide)
    exact ⟨accepted,taken,by rw [(acceptedFormat taken).2]; rfl⟩
  refine ⟨taken,fun all => ?_⟩
  obtain ⟨accepted,accepts,far⟩ := taken ⟨rgb565,rgb565,false,false,⟨1,1⟩⟩
  have low : accepted.clientFormat.redShift < 32 := ((all farRed _ accepted accepts).shifts .red).1
  omega

end Ltsm.AcceptedFormats
