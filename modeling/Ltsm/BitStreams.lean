import Mathlib.Data.List.Induction
import Mathlib.Data.Nat.Bitwise
import Mathlib.Tactic.Ring
import Ltsm.Library.ByteReader

/-! Packed bits. A row of values is pushed from its first on, each from its highest
bit, and filled up to whole bytes; it is popped from the end, each value from its
lowest bit. Both sides are followed by the number that the bits spell. -/
namespace Ltsm.BitStreams
open Library

/- The last byte of the buffer comes first. -/
structure StreamBits where
  bitpos : Nat
  vecbuf : Bytes
  deriving DecidableEq, Repr

namespace StreamBits

def toVector (sb : StreamBits) : Bytes := sb.vecbuf.reverse

def mark (bitpos : Nat) : Bytes → Bytes
  | [] => []
  | back :: rest => (back ||| UInt8.ofNat (2 ^ bitpos)) :: rest

def pushBit (sb : StreamBits) (v : Bool) : StreamBits :=
  let vecbuf := if sb.bitpos = 7 then 0 :: sb.vecbuf else sb.vecbuf
  ⟨if sb.bitpos = 0 then 7 else sb.bitpos - 1,if v then mark sb.bitpos vecbuf else vecbuf⟩

def pushAlign (sb : StreamBits) : StreamBits := {sb with bitpos := 7}

def pushValue (val : Nat) : Nat → StreamBits → StreamBits
  | 0, sb => sb
  | field + 1, sb => pushValue val field (sb.pushBit (val.testBit field))

def popBit (sb : StreamBits) : Option (Bool × StreamBits) :=
  match sb.vecbuf with
  | [] => none
  | back :: rest =>
    some (back.toNat.testBit sb.bitpos,
      if sb.bitpos = 7 then ⟨0,rest⟩ else ⟨sb.bitpos + 1,back :: rest⟩)

/- Bit by bit with the mask going up; `val` is what has been read. -/
def popBits : Nat → Nat → Nat → StreamBits → Option (Nat × StreamBits)
  | 0, _, val, sb => some (val,sb)
  | field + 1, mask2, val, sb => do
    let (bit,sb) ← sb.popBit
    popBits field (2 * mask2) (if bit then val ||| mask2 else val) sb

def popValue (sb : StreamBits) (field : Nat) : Option (Nat × StreamBits) := popBits field 1 0 sb

end StreamBits

def streamBitsPack : StreamBits := ⟨7,[]⟩

def rowLength (bits : Nat) : Nat := if bits / 8 * 8 < bits then bits / 8 + 1 else bits / 8

def streamBitsUnpack (v : Bytes) (counts field : Nat) : Option StreamBits :=
  let bits := field * counts
  let len := rowLength bits
  if len < v.length then none else some ⟨len * 8 - bits,v.reverse⟩

/- The bits of the last byte that are still free. -/
def spare (bitpos : Nat) : Nat := if bitpos = 7 then 0 else bitpos + 1

/- Since the last alignment `count` bits have been pushed, which spell `value`. -/
structure Packed (before : Bytes) (sb : StreamBits) (count value : Nat) : Prop where
  low : sb.bitpos ≤ 7
  bytes : ∃ row, sb.vecbuf = row ++ before ∧ 8 * row.length = count + spare sb.bitpos ∧
    ofLittleEndian row = value * 2 ^ spare sb.bitpos

/- `count` bits are left, which spell `value`. -/
structure Unpacked (sb : StreamBits) (count value : Nat) : Prop where
  low : sb.bitpos ≤ 7
  length : 8 * sb.vecbuf.length = count + sb.bitpos
  bytes : ofLittleEndian sb.vecbuf / 2 ^ sb.bitpos = value

theorem packedStart (before : Bytes) {sb : StreamBits} (aligned : sb.bitpos = 7)
    (same : sb.vecbuf = before) : Packed before sb 0 0 :=
  ⟨by omega,[],same,by simp [spare,aligned],by simp [ofLittleEndian]⟩

section
variable {before : Bytes} {sb : StreamBits} {count value : Nat}

/- A bit set where the byte was free adds its weight. -/
theorem markAdds {bitpos : Nat} (low : bitpos ≤ 7) {back : UInt8} {rest : Bytes}
    (free : 2 ^ (bitpos + 1) ∣ ofLittleEndian (back :: rest)) :
    ofLittleEndian (StreamBits.mark bitpos (back :: rest)) = ofLittleEndian (back :: rest) + 2 ^ bitpos := by
  have small := back.toNat_lt
  have weight : 2 ^ bitpos < 256 := Nat.pow_lt_pow_right (by decide) (show bitpos < 8 by omega)
  have whole : 2 ^ (bitpos + 1) ∣ 256 * ofLittleEndian rest :=
    Dvd.dvd.mul_right (Nat.pow_dvd_pow 2 (show bitpos + 1 ≤ 8 by omega)) _
  obtain ⟨high,same⟩ : 2 ^ (bitpos + 1) ∣ back.toNat := by
    rw [ofLittleEndian] at free
    exact (Nat.dvd_add_left whole).mp free
  have sum : back.toNat ||| 2 ^ bitpos = back.toNat + 2 ^ bitpos := by
    have next : 2 ^ bitpos < 2 ^ (bitpos + 1) := Nat.pow_lt_pow_right (by decide) (by omega)
    rw [same]
    exact (Nat.two_pow_add_eq_or_of_lt next high).symm
  have bound : back.toNat ||| 2 ^ bitpos < 2 ^ 8 := Nat.or_lt_two_pow small weight
  rw [StreamBits.mark,ofLittleEndian,ofLittleEndian,UInt8.toNat_or,UInt8.toNat_ofNat',
    Nat.mod_eq_of_lt weight,sum]
  omega

theorem packedBit (h : Packed before sb count value) (v : Bool) :
    Packed before (sb.pushBit v) (count + 1) (2 * value + v.toNat) := by
  obtain ⟨low,row,same,length,number⟩ := h
  have next (row : Bytes) (some : row ≠ [])
      (number : ofLittleEndian row = value * 2 ^ (sb.bitpos + 1)) :
      ∃ pushed, (if v then StreamBits.mark sb.bitpos (row ++ before) else row ++ before) = pushed ++ before ∧
        pushed.length = row.length ∧ ofLittleEndian pushed = (2 * value + v.toNat) * 2 ^ sb.bitpos := by
    have twice : value * 2 ^ (sb.bitpos + 1) = 2 * value * 2 ^ sb.bitpos := by
      rw [Nat.pow_succ]
      ring
    cases v with
    | false => exact ⟨row,rfl,rfl,by rw [number,twice]; simp⟩
    | true =>
      obtain ⟨back,rest,rfl⟩ := List.exists_cons_of_ne_nil some
      refine ⟨StreamBits.mark sb.bitpos (back :: rest),rfl,rfl,?_⟩
      rw [markAdds low ⟨value,by rw [number,Nat.mul_comm]⟩,number,twice,Bool.toNat_true]
      ring
  by_cases fresh : sb.bitpos = 7
  · have none : spare sb.bitpos = 0 := if_pos fresh
    rw [none] at length number
    have zero : ofLittleEndian (0 :: row) = value * 2 ^ (sb.bitpos + 1) := by
      rw [ofLittleEndian,number,fresh]
      simp
      ring
    obtain ⟨pushed,bytes,same',number'⟩ := next (0 :: row) (List.cons_ne_nil _ _) zero
    have six : (sb.pushBit v).bitpos = 6 := by simp [StreamBits.pushBit,fresh]
    refine ⟨by omega,pushed,?_,?_,?_⟩
    · simp only [StreamBits.pushBit,if_pos fresh,same]
      exact bytes
    · have seven : spare 6 = 7 := rfl
      rw [six,same',List.length_cons,seven]
      omega
    · rw [six,number',fresh]
      rfl
  · have some : row ≠ [] := by
      rintro rfl
      simp [spare,fresh] at length
    have left : spare sb.bitpos = sb.bitpos + 1 := if_neg fresh
    rw [left] at length number
    obtain ⟨pushed,bytes,same',number'⟩ := next row some number
    have down : spare (sb.pushBit v).bitpos = sb.bitpos := by
      simp only [StreamBits.pushBit,spare]
      split <;> split <;> omega
    refine ⟨?_,pushed,?_,?_,?_⟩
    · simp only [StreamBits.pushBit]
      split <;> omega
    · simp only [StreamBits.pushBit,if_neg fresh,same]
      exact bytes
    · rw [down,same']
      omega
    · rw [down,number']

theorem packedValue (h : Packed before sb count value) (val field : Nat) :
    Packed before (sb.pushValue val field) (count + field) (value * 2 ^ field + val % 2 ^ field) := by
  induction field generalizing sb count value with
  | zero => simpa [StreamBits.pushValue,Nat.mod_one] using h
  | succ field ih =>
    have pushed := ih (packedBit h (val.testBit field))
    have spelled : (2 * value + (val.testBit field).toNat) * 2 ^ field + val % 2 ^ field =
        value * 2 ^ (field + 1) + val % 2 ^ (field + 1) := by
      rw [Nat.mod_pow_succ,Nat.toNat_testBit,Nat.pow_succ]
      ring
    rw [spelled,Nat.add_right_comm] at pushed
    exact pushed

theorem unpackedBit (h : Unpacked sb (count + 1) value) :
    ∃ rest, sb.popBit = some (value.testBit 0,rest) ∧ Unpacked rest count (value / 2) := by
  obtain ⟨low,length,number⟩ := h
  match bytes : sb.vecbuf with
  | [] =>
    rw [bytes,List.length_nil] at length
    omega
  | back :: rest =>
    rw [bytes,List.length_cons] at length
    rw [bytes,ofLittleEndian] at number
    have bit : back.toNat.testBit sb.bitpos = value.testBit 0 := by
      have low' : back.toNat.testBit sb.bitpos = (back.toNat + 256 * ofLittleEndian rest).testBit sb.bitpos := by
        have small := back.toNat_lt
        have sum := Nat.two_pow_add_eq_or_of_lt small (ofLittleEndian rest)
        rw [Nat.add_comm back.toNat]
        have weight : 256 * ofLittleEndian rest = 2 ^ 8 * ofLittleEndian rest := rfl
        rw [weight,sum,Nat.testBit_or,Nat.testBit_two_pow_mul]
        simp [show ¬8 ≤ sb.bitpos by omega]
      rw [low',← number,Nat.testBit_div_two_pow,Nat.zero_add]
    refine ⟨_,by rw [StreamBits.popBit,bytes,← bit],?_⟩
    by_cases last : sb.bitpos = 7
    · rw [if_pos last]
      have small := back.toNat_lt
      refine ⟨by simp,by simp only; omega,?_⟩
      rw [← number,last]
      simp only [Nat.pow_zero,Nat.div_one]
      omega
    · rw [if_neg last]
      refine ⟨by simp only; omega,by simp only [List.length_cons]; omega,?_⟩
      rw [← number,ofLittleEndian,Nat.div_div_eq_div_mul,Nat.pow_succ]

theorem unpackedBits {mask field val : Nat} (below : val < 2 ^ mask)
    (h : Unpacked sb (count + field) value) :
    ∃ rest, StreamBits.popBits field (2 ^ mask) val sb = some (val + 2 ^ mask * (value % 2 ^ field),rest) ∧
      Unpacked rest count (value / 2 ^ field) := by
  induction field generalizing mask val sb value with
  | zero => exact ⟨sb,by simp [StreamBits.popBits,Nat.mod_one],by simpa using h⟩
  | succ field ih =>
    obtain ⟨next,pops,left⟩ := unpackedBit h
    have bit : (if value.testBit 0 then val ||| 2 ^ mask else val) = val + 2 ^ mask * (value % 2) := by
      have parity : value.testBit 0 = decide (value % 2 = 1) := Nat.testBit_zero value
      obtain even | odd := Nat.mod_two_eq_zero_or_one value
      · simp [parity,even]
      · have sum := Nat.two_pow_add_eq_or_of_lt below 1
        rw [Nat.mul_one] at sum
        simp [parity,odd,Nat.lor_comm val,← sum,Nat.add_comm]
    have below' : val + 2 ^ mask * (value % 2) < 2 ^ (mask + 1) := by
      have half : 2 ^ mask * (value % 2) ≤ 2 ^ mask * 1 := Nat.mul_le_mul_left _ (by omega)
      rw [Nat.pow_succ]
      omega
    obtain ⟨rest,returns,done⟩ := ih below' left
    refine ⟨rest,?_,?_⟩
    · have twice : 2 * 2 ^ mask = 2 ^ (mask + 1) := by ring
      have digits : value % 2 ^ (field + 1) = value % 2 + 2 * (value / 2 % 2 ^ field) := by
        rw [Nat.pow_succ',Nat.mod_mul]
      rw [StreamBits.popBits,pops]
      simp only [bind,Option.bind,bit,twice,returns,digits]
      congr 2
      ring
    · rwa [Nat.div_div_eq_div_mul,← Nat.pow_succ'] at done

theorem unpackedValue {field : Nat} (h : Unpacked sb (count + field) value) :
    ∃ rest, sb.popValue field = some (value % 2 ^ field,rest) ∧ Unpacked rest count (value / 2 ^ field) := by
  have popped : ∃ rest, StreamBits.popBits field (2 ^ 0) 0 sb = some (0 + 2 ^ 0 * (value % 2 ^ field),rest) ∧
      Unpacked rest count (value / 2 ^ field) := unpackedBits (by decide) h
  simpa [StreamBits.popValue] using popped

end

/- A row of values, as the number they spell. -/
def spell (field : Nat) (values : List Nat) : Nat :=
  values.foldl (fun number value => number * 2 ^ field + value) 0

theorem spellSnoc (field : Nat) (values : List Nat) (last : Nat) :
    spell field (values ++ [last]) = spell field values * 2 ^ field + last := by
  simp [spell]

theorem packedRow {before : Bytes} {sb : StreamBits} {field : Nat} (start : Packed before sb 0 0)
    (values : List Nat) (small : ∀ value ∈ values, value < 2 ^ field) :
    Packed before (values.foldl (fun sb value => sb.pushValue value field) sb) (field * values.length)
      (spell field values) := by
  induction values using List.reverseRecOn with
  | nil => exact start
  | append_singleton values last ih =>
    obtain ⟨firsts,lastSmall⟩ : (∀ value ∈ values, value < 2 ^ field) ∧ last < 2 ^ field := by
      simpa [or_imp,forall_and] using small
    have pushed := packedValue (ih firsts) last field
    rw [Nat.mod_eq_of_lt lastSmall] at pushed
    rw [List.foldl_append,spellSnoc,List.length_append,List.length_singleton,Nat.mul_add,Nat.mul_one]
    exact pushed

/- The bytes of a row, which the other side takes and finds the same number in. -/
theorem packedUnpacked {before : Bytes} {sb : StreamBits} {counts field value : Nat}
    (h : Packed before sb (field * counts) value) :
    ∃ row rest, sb.vecbuf = row ++ before ∧ row.length = rowLength (field * counts) ∧
      streamBitsUnpack row.reverse counts field = some rest ∧ Unpacked rest (field * counts) value := by
  obtain ⟨low,row,same,length,number⟩ := h
  have free : spare sb.bitpos ≤ 7 := by
    unfold spare
    split <;> omega
  have len : row.length = rowLength (field * counts) := by
    unfold rowLength
    split <;> omega
  refine ⟨row,⟨rowLength (field * counts) * 8 - field * counts,row⟩,same,len,?_,?_,?_,?_⟩
  · simp [streamBitsUnpack,len]
  · simp only
    omega
  · simp only
    omega
  · have pad : rowLength (field * counts) * 8 - field * counts = spare sb.bitpos := by omega
    rw [pad]
    simp only
    rw [number,Nat.mul_div_cancel _ (Nat.two_pow_pos _)]

end Ltsm.BitStreams
