import Ltsm.Library.Fifo
import Ltsm.StreamBufs

/-! The stream buffers: bytes written at the end and read from a position that moves through them.
What a stream is to its callers is the list of the bytes still to come; `shrink` moves these to the
front of the storage. A reading of zero bytes takes all of them. -/
namespace Ltsm.StreamFifo
open Library

inductive Thrown
  | invalidArgument
  | outOfRange
  | streambufError
  deriving DecidableEq, Repr

/- What an exception leaves of the stream is there as well. -/
abbrev Effect (σ : Type) := EStateM Thrown σ

/- A position in a sequence of bytes; `next` moves it on. -/
class Cursor (σ : Type) where
  content : σ → Bytes
  next : (s : σ) → (len : Nat) → len ≤ (content s).length → σ
  nextContent : ∀ s len few, content (next s len few) = (content s).drop len

/- A stream takes every write, or refuses every one. -/
class MemoryStream (σ : Type) extends Cursor σ where
  putRaw : Bytes → Effect σ Unit
  writable : Bool
  takesPut : writable = true → ∀ src s, ∃ s', putRaw src s = .ok () s' ∧ content s' = content s ++ src
  refusesPut : writable = false → ∀ src s, putRaw src s = .error .streambufError s

section
variable {σ : Type} [Cursor σ]
open Cursor

abbrev last (s : σ) : Nat := (content s).length

def getRaw (len : Nat) : Effect σ Bytes := fun s =>
  if few : last s < len then .error .invalidArgument s
  else .ok ((content s).take len) (next s len (Nat.not_lt.mp few))

def read (len : Nat) : Effect σ Bytes := fun s =>
  if few : last s < len then .error .invalidArgument s
  else if len = 0 then .ok (content s) (next s (last s) (Nat.le_refl _))
  else .ok ((content s).take len) (next s len (Nat.not_lt.mp few))

def skip (len : Nat) : Effect σ Unit := fun s =>
  if few : last s < len then .error .invalidArgument s
  else .ok () (next s len (Nat.not_lt.mp few))

def peek : Effect σ UInt8 := fun s =>
  match content s with
  | [] => .error .outOfRange s
  | byte :: _ => .ok byte s

def readTo (len : Nat) : Effect σ Bytes := getRaw len

def readString (len : Nat) : Effect σ Bytes := fun s => readTo (if len = 0 then last s else len) s

def getInt8 : Effect σ UInt8 := do
  let raw ← getRaw 1
  pure (UInt8.ofNat (ofLittleEndian raw))

def getIntLE16 : Effect σ UInt16 := do
  let raw ← getRaw 2
  pure (UInt16.ofNat (ofLittleEndian raw))

def getIntLE32 : Effect σ UInt32 := do
  let raw ← getRaw 4
  pure (UInt32.ofNat (ofLittleEndian raw))

def getIntLE64 : Effect σ UInt64 := do
  let raw ← getRaw 8
  pure (UInt64.ofNat (ofLittleEndian raw))

def getIntBE16 : Effect σ UInt16 := do
  let raw ← getRaw 2
  pure (UInt16.ofNat (ofBigEndian raw))

def getIntBE32 : Effect σ UInt32 := do
  let raw ← getRaw 4
  pure (UInt32.ofNat (ofBigEndian raw))

def getIntBE64 : Effect σ UInt64 := do
  let raw ← getRaw 8
  pure (UInt64.ofNat (ofBigEndian raw))

end

section
variable {σ : Type} [MemoryStream σ]
open MemoryStream

def putInt8 (v : UInt8) : Effect σ Unit := putRaw [v]
def putIntLE16 (v : UInt16) : Effect σ Unit := putRaw (littleEndian 2 v.toNat)
def putIntLE32 (v : UInt32) : Effect σ Unit := putRaw (littleEndian 4 v.toNat)
def putIntLE64 (v : UInt64) : Effect σ Unit := putRaw (littleEndian 8 v.toNat)
def putIntBE16 (v : UInt16) : Effect σ Unit := putRaw (bigEndian 2 v.toNat)
def putIntBE32 (v : UInt32) : Effect σ Unit := putRaw (bigEndian 4 v.toNat)
def putIntBE64 (v : UInt64) : Effect σ Unit := putRaw (bigEndian 8 v.toNat)

def fill : Nat → UInt8 → Effect σ Unit
  | 0, _ => pure ()
  | len + 1, c => do
    putInt8 c
    fill len c

end

/- The read and write stream; `it` is the offset of its iterator. -/
structure StreamBuf where
  vec : Bytes
  it : Nat
  inside : it ≤ vec.length

namespace StreamBuf

def rest (sb : StreamBuf) : Bytes := sb.vec.drop sb.it

theorem restLength (sb : StreamBuf) : sb.rest.length = sb.vec.length - sb.it := List.length_drop

def next (sb : StreamBuf) (len : Nat) (few : len ≤ sb.rest.length) : StreamBuf where
  vec := sb.vec
  it := sb.it + len
  inside := by
    have inside := sb.inside
    rw [restLength] at few
    omega

/- The storage may move, so the iterator is set again from its offset. -/
def putRaw (src : Bytes) : Effect StreamBuf Unit := fun sb =>
  .ok () ⟨sb.vec ++ src,min sb.it (sb.vec ++ src).length,Nat.min_le_right _ _⟩

def shrink (sb : StreamBuf) : StreamBuf :=
  if sb.vec.length = 0 then sb
  else if sb.it = sb.vec.length then ⟨[],0,Nat.le_refl 0⟩
  else if sb.vec.length > 10 * sb.rest.length then ⟨sb.rest,0,Nat.zero_le _⟩
  else sb

def ofVec (v : Bytes) : StreamBuf := ⟨v,0,Nat.zero_le _⟩

theorem putRest (sb : StreamBuf) (src : Bytes) :
    (sb.vec ++ src).drop (min sb.it (sb.vec ++ src).length) = sb.rest ++ src := by
  have inside := sb.inside
  have place : min sb.it (sb.vec ++ src).length = sb.it := by
    rw [List.length_append]
    omega
  rw [place,List.drop_append_of_le_length inside,rest]

instance instStream : MemoryStream StreamBuf where
  content := rest
  next := next
  nextContent := fun _ _ _ => (List.drop_drop ..).symm
  putRaw := putRaw
  writable := true
  takesPut := fun _ src sb => ⟨_,rfl,putRest sb src⟩
  refusesPut := fun never => by cases never

end StreamBuf

/- The stream over memory that it does not own. -/
structure StreamBufRef where
  mem : Bytes
  it1 : Nat
  inside : it1 ≤ mem.length

namespace StreamBufRef

def rest (sb : StreamBufRef) : Bytes := sb.mem.drop sb.it1

def next (sb : StreamBufRef) (len : Nat) (few : len ≤ sb.rest.length) : StreamBufRef where
  mem := sb.mem
  it1 := sb.it1 + len
  inside := by
    have inside := sb.inside
    rw [rest,List.length_drop] at few
    omega

def putRaw (_ : Bytes) : Effect StreamBufRef Unit := fun sb => .error .streambufError sb

instance instStream : MemoryStream StreamBufRef where
  content := rest
  next := next
  nextContent := fun _ _ _ => (List.drop_drop ..).symm
  putRaw := putRaw
  writable := false
  takesPut := fun never => by cases never
  refusesPut := fun _ _ _ => rfl

end StreamBufRef

/- What a caller may do with any stream. -/
inductive Call
  | write (src : Bytes)
  | fill (len : Nat) (c : UInt8)
  | writeInt8 (v : UInt8)
  | writeIntLE16 (v : UInt16)
  | writeIntLE32 (v : UInt32)
  | writeIntLE64 (v : UInt64)
  | writeIntBE16 (v : UInt16)
  | writeIntBE32 (v : UInt32)
  | writeIntBE64 (v : UInt64)
  | read (len : Nat)
  | readString (len : Nat)
  | readTo (len : Nat)
  | readInt8
  | readIntLE16
  | readIntLE32
  | readIntLE64
  | readIntBE16
  | readIntBE32
  | readIntBE64
  | peek
  | skip (len : Nat)
  deriving DecidableEq, Repr

/- A number comes with the width and the order that it was read in. -/
inductive Answer
  | done
  | bytes (raw : Bytes)
  | little (size value : Nat)
  | big (size value : Nat)
  | front (byte : UInt8)
  deriving DecidableEq, Repr

def perform {σ : Type} [MemoryStream σ] : Call → Effect σ Answer
  | .write src => do MemoryStream.putRaw src; pure .done
  | .fill len c => do fill len c; pure .done
  | .writeInt8 v => do putInt8 v; pure .done
  | .writeIntLE16 v => do putIntLE16 v; pure .done
  | .writeIntLE32 v => do putIntLE32 v; pure .done
  | .writeIntLE64 v => do putIntLE64 v; pure .done
  | .writeIntBE16 v => do putIntBE16 v; pure .done
  | .writeIntBE32 v => do putIntBE32 v; pure .done
  | .writeIntBE64 v => do putIntBE64 v; pure .done
  | .read len => do return .bytes (← read len)
  | .readString len => do return .bytes (← readString len)
  | .readTo len => do return .bytes (← readTo len)
  | .readInt8 => do return .little 1 (← getInt8).toNat
  | .readIntLE16 => do return .little 2 (← getIntLE16).toNat
  | .readIntLE32 => do return .little 4 (← getIntLE32).toNat
  | .readIntLE64 => do return .little 8 (← getIntLE64).toNat
  | .readIntBE16 => do return .big 2 (← getIntBE16).toNat
  | .readIntBE32 => do return .big 4 (← getIntBE32).toNat
  | .readIntBE64 => do return .big 8 (← getIntBE64).toNat
  | .peek => do return .front (← peek)
  | .skip len => do skip len; pure .done

namespace Call

def isWrite : Call → Bool
  | .write _ | .fill _ _ | .writeInt8 _ | .writeIntLE16 _ | .writeIntLE32 _ | .writeIntLE64 _
  | .writeIntBE16 _ | .writeIntBE32 _ | .writeIntBE64 _ => true
  | _ => false

def written : Call → Bytes
  | .write src => src
  | .fill len c => List.replicate len c
  | .writeInt8 v => [v]
  | .writeIntLE16 v => littleEndian 2 v.toNat
  | .writeIntLE32 v => littleEndian 4 v.toNat
  | .writeIntLE64 v => littleEndian 8 v.toNat
  | .writeIntBE16 v => bigEndian 2 v.toNat
  | .writeIntBE32 v => bigEndian 4 v.toNat
  | .writeIntBE64 v => bigEndian 8 v.toNat
  | _ => []

/- How many bytes have to be there. -/
def demand : Call → Nat
  | .read len | .readString len | .readTo len | .skip len => len
  | .readInt8 | .peek => 1
  | .readIntLE16 | .readIntBE16 => 2
  | .readIntLE32 | .readIntBE32 => 4
  | .readIntLE64 | .readIntBE64 => 8
  | _ => 0

/- How many of `left` bytes are gone afterwards. -/
def takes (left : Nat) : Call → Nat
  | .read len | .readString len => if len = 0 then left else len
  | .peek => 0
  | call => call.demand

/- The answer over the bytes still to come, when they are enough. -/
def answered (queue : Bytes) : Call → Answer
  | .read len => .bytes (queue.take ((Call.read len).takes queue.length))
  | .readString len => .bytes (queue.take ((Call.readString len).takes queue.length))
  | .readTo len => .bytes (queue.take len)
  | .readInt8 => .little 1 (ofLittleEndian (queue.take 1))
  | .readIntLE16 => .little 2 (ofLittleEndian (queue.take 2))
  | .readIntLE32 => .little 4 (ofLittleEndian (queue.take 4))
  | .readIntLE64 => .little 8 (ofLittleEndian (queue.take 8))
  | .readIntBE16 => .big 2 (ofBigEndian (queue.take 2))
  | .readIntBE32 => .big 4 (ofBigEndian (queue.take 4))
  | .readIntBE64 => .big 8 (ofBigEndian (queue.take 8))
  | .peek => queue.head?.elim .done .front
  | _ => .done

/- What goes by unread. -/
def passed (queue : Bytes) : Call → Bytes
  | .skip len => queue.take len
  | _ => []

/- The exception when they are not. -/
def refusal : Call → Thrown
  | .peek => .outOfRange
  | _ => .invalidArgument

end Call

/- The bytes that an answer stands for. -/
def Answer.raw : Answer → Bytes
  | .bytes raw => raw
  | .little size value => littleEndian size value
  | .big size value => bigEndian size value
  | _ => []

section
variable {σ : Type} {α β : Type}

theorem servedBind {e : Effect σ α} {f : α → Effect σ β} {s s' : σ} {a : α} (served : e s = .ok a s') :
    (e >>= f) s = f a s' := by
  simp only [bind,EStateM.bind,served]

theorem refusedBind {e : Effect σ α} {f : α → Effect σ β} {s s' : σ} {thrown : Thrown}
    (refused : e s = .error thrown s') : (e >>= f) s = .error thrown s' := by
  simp only [bind,EStateM.bind,refused]

end

section
variable {σ : Type} [Cursor σ] {s : σ} {len : Nat}
open Cursor

theorem getRawServed (few : len ≤ (content s).length) :
    getRaw len s = .ok ((content s).take len) (next s len few) := dif_neg (Nat.not_lt.mpr few)

theorem getRawRefused (short : (content s).length < len) : getRaw len s = .error .invalidArgument s :=
  dif_pos short

theorem readServed (few : len ≤ (content s).length) (filled : len ≠ 0) :
    read len s = .ok ((content s).take len) (next s len few) :=
  (dif_neg (Nat.not_lt.mpr few)).trans (if_neg filled)

theorem readWhole (s : σ) : read 0 s = .ok (content s) (next s (last s) (Nat.le_refl _)) :=
  (dif_neg (Nat.not_lt_zero _)).trans (if_pos rfl)

theorem readRefused (short : (content s).length < len) : read len s = .error .invalidArgument s := dif_pos short

theorem skipServed (few : len ≤ (content s).length) : skip len s = .ok () (next s len few) :=
  dif_neg (Nat.not_lt.mpr few)

theorem skipRefused (short : (content s).length < len) : skip len s = .error .invalidArgument s := dif_pos short

end

theorem numberOf {size : Nat} {raw : Bytes} (width : raw.length ≤ size) :
    ofLittleEndian raw < 256 ^ size ∧ ofBigEndian raw < 256 ^ size := by
  have little := ofLittleEndianLt raw
  have big := ofLittleEndianLt raw.reverse
  rw [List.length_reverse] at big
  have room : 256 ^ raw.length ≤ 256 ^ size := Nat.pow_le_pow_right (by decide) width
  exact ⟨Nat.lt_of_lt_of_le little room,Nat.lt_of_lt_of_le big room⟩

theorem numberTaken (queue : Bytes) (size : Nat) :
    ofLittleEndian (queue.take size) < 256 ^ size ∧ ofBigEndian (queue.take size) < 256 ^ size :=
  numberOf (List.length_take_le size queue)

section
variable {σ : Type} [MemoryStream σ]
open Cursor MemoryStream

theorem fillServed (able : writable σ = true) (len : Nat) (c : UInt8) (s : σ) :
    ∃ s', fill len c s = .ok () s' ∧ content s' = content s ++ List.replicate len c := by
  induction len generalizing s with
  | zero => exact ⟨s,rfl,(List.append_nil _).symm⟩
  | succ len ih =>
    obtain ⟨between,put,kept⟩ := takesPut able [c] s
    obtain ⟨s',filled,all⟩ := ih between
    refine ⟨s',(servedBind put).trans filled,?_⟩
    rw [all,kept,List.append_assoc,List.replicate_succ,List.singleton_append]

theorem nextLeft {s : σ} {len : Nat} (few : len ≤ (content s).length) :
    content (next s len few) = (content s).drop len ++ [] := by
  rw [nextContent,List.append_nil]

/- The readings of a number. -/
theorem numberServed {α : Type} {s : σ} {len : Nat} (few : len ≤ (content s).length) (value : Bytes → α)
    (answer : α → Answer) {expected : Answer} (same : answer (value ((content s).take len)) = expected) :
    ∃ s', ((getRaw len >>= fun raw => pure (value raw)) >>= fun v => pure (answer v)) s = .ok expected s' ∧
      content s' = (content s).drop len ++ [] := by
  refine ⟨next s len few,?_,nextLeft few⟩
  rw [← same]
  exact servedBind (servedBind (getRawServed few))

/- The readings for which no bytes are all of them. -/
theorem readTakes {s : σ} {len : Nat} (few : len ≤ (content s).length) :
    ∃ s', read len s = .ok ((content s).take ((Call.read len).takes (content s).length)) s' ∧
      content s' = (content s).drop ((Call.read len).takes (content s).length) ++ [] := by
  by_cases zero : len = 0
  · subst zero
    refine ⟨_,(readWhole s).trans ?_,nextLeft (Nat.le_refl _)⟩
    rw [Call.takes,if_pos rfl,List.take_length]
  · rw [Call.takes,if_neg zero]
    exact ⟨_,readServed few zero,nextLeft few⟩

theorem readStringTakes {s : σ} {len : Nat} (few : len ≤ (content s).length) :
    ∃ s', readString len s = .ok ((content s).take ((Call.readString len).takes (content s).length)) s' ∧
      content s' = (content s).drop ((Call.readString len).takes (content s).length) ++ [] := by
  by_cases zero : len = 0
  · have whole : readString len s = getRaw (last s) s := by rw [readString,if_pos zero,readTo]
    rw [whole,Call.takes,if_pos zero]
    exact ⟨_,getRawServed (Nat.le_refl _),nextLeft _⟩
  · have part : readString len s = getRaw len s := by rw [readString,if_neg zero,readTo]
    rw [part,Call.takes,if_neg zero]
    exact ⟨_,getRawServed few,nextLeft few⟩

/- What a call does where the bytes it needs are there. -/
theorem performServed {call : Call} (able : call.isWrite = true → writable σ = true) {s : σ}
    (few : call.demand ≤ (content s).length) :
    ∃ s', perform call s = .ok (call.answered (content s)) s' ∧
      content s' = (content s).drop (call.takes (content s).length) ++ call.written := by
  have wrote : ∀ src, call.isWrite = true → ∃ s', putRaw src s = .ok () s' ∧ content s' = content s ++ src :=
    fun src writes => takesPut (able writes) src s
  have small := fun size => numberTaken (content s) size
  cases call with
  | write src =>
    obtain ⟨s',put,kept⟩ := wrote src rfl
    exact ⟨s',servedBind put,kept⟩
  | fill len c =>
    obtain ⟨s',put,kept⟩ := fillServed (able rfl) len c s
    exact ⟨s',servedBind put,kept⟩
  | writeInt8 v | writeIntLE16 v | writeIntLE32 v | writeIntLE64 v | writeIntBE16 v | writeIntBE32 v
  | writeIntBE64 v =>
    obtain ⟨s',put,kept⟩ := wrote _ rfl
    exact ⟨s',servedBind put,kept⟩
  | read len =>
    obtain ⟨s',took,left⟩ := readTakes few
    exact ⟨s',servedBind took,left⟩
  | readString len =>
    obtain ⟨s',took,left⟩ := readStringTakes few
    exact ⟨s',servedBind took,left⟩
  | readTo len => exact ⟨_,servedBind (getRawServed few),nextLeft few⟩
  | readInt8 =>
    exact numberServed few (fun raw => UInt8.ofNat (ofLittleEndian raw)) (fun v => .little 1 v.toNat)
      (congrArg (Answer.little 1) (UInt8.toNat_ofNat_of_lt' (small 1).1))
  | readIntLE16 =>
    exact numberServed few (fun raw => UInt16.ofNat (ofLittleEndian raw)) (fun v => .little 2 v.toNat)
      (congrArg (Answer.little 2) (UInt16.toNat_ofNat_of_lt' (small 2).1))
  | readIntLE32 =>
    exact numberServed few (fun raw => UInt32.ofNat (ofLittleEndian raw)) (fun v => .little 4 v.toNat)
      (congrArg (Answer.little 4) (UInt32.toNat_ofNat_of_lt' (small 4).1))
  | readIntLE64 =>
    exact numberServed few (fun raw => UInt64.ofNat (ofLittleEndian raw)) (fun v => .little 8 v.toNat)
      (congrArg (Answer.little 8) (UInt64.toNat_ofNat_of_lt' (small 8).1))
  | readIntBE16 =>
    exact numberServed few (fun raw => UInt16.ofNat (ofBigEndian raw)) (fun v => .big 2 v.toNat)
      (congrArg (Answer.big 2) (UInt16.toNat_ofNat_of_lt' (small 2).2))
  | readIntBE32 =>
    exact numberServed few (fun raw => UInt32.ofNat (ofBigEndian raw)) (fun v => .big 4 v.toNat)
      (congrArg (Answer.big 4) (UInt32.toNat_ofNat_of_lt' (small 4).2))
  | readIntBE64 =>
    exact numberServed few (fun raw => UInt64.ofNat (ofBigEndian raw)) (fun v => .big 8 v.toNat)
      (congrArg (Answer.big 8) (UInt64.toNat_ofNat_of_lt' (small 8).2))
  | peek =>
    obtain ⟨byte,queue,held⟩ := List.exists_cons_of_length_pos few
    have seen : peek s = .ok byte s := by rw [peek,held]
    refine ⟨s,?_,(List.append_nil _).symm⟩
    rw [Call.answered,held]
    exact servedBind seen
  | skip len => exact ⟨_,servedBind (skipServed few),nextLeft few⟩

/- And where they are not. -/
theorem performRefused {call : Call} {s : σ} (short : (content s).length < call.demand) :
    perform call s = .error call.refusal s := by
  cases call with
  | write | fill | writeInt8 | writeIntLE16 | writeIntLE32 | writeIntLE64 | writeIntBE16 | writeIntBE32
  | writeIntBE64 => exact absurd short (Nat.not_lt_zero _)
  | read len => exact refusedBind (readRefused short)
  | readString len =>
    have filled : len ≠ 0 := Nat.ne_zero_of_lt short
    have part : readString len s = getRaw len s := by rw [readString,if_neg filled,readTo]
    exact refusedBind (part.trans (getRawRefused short))
  | readTo len => exact refusedBind (getRawRefused short)
  | readInt8 | readIntLE16 | readIntLE32 | readIntLE64 | readIntBE16 | readIntBE32 | readIntBE64 =>
    exact refusedBind (refusedBind (getRawRefused short))
  | peek =>
    have empty : content s = [] := List.length_eq_zero_iff.mp (Nat.lt_one_iff.mp short)
    have ended : peek s = .error .outOfRange s := by rw [peek,empty]
    exact refusedBind ended
  | skip len => exact refusedBind (skipRefused short)

/- A stream that is only read; filling in no bytes is no write. -/
theorem performLocked {call : Call} (locked : writable σ = false) (writes : call.isWrite = true) (s : σ) :
    perform call s = .error .streambufError s ∨ perform call s = .ok .done s ∧ call.written = [] := by
  have refused : ∀ src, putRaw src s = .error .streambufError s := fun src => refusesPut locked src s
  cases call with
  | write | writeInt8 | writeIntLE16 | writeIntLE32 | writeIntLE64 | writeIntBE16 | writeIntBE32 | writeIntBE64 =>
    exact .inl (refusedBind (refused _))
  | fill len c =>
    cases len with
    | zero => exact .inr ⟨rfl,rfl⟩
    | succ len => exact .inl (refusedBind (refusedBind (refused [c])))
  | _ => cases writes

/- The bytes of an answer are the front of the queue. -/
theorem answeredRaw {call : Call} {queue : Bytes} (few : call.demand ≤ queue.length) :
    (call.answered queue).raw ++ call.passed queue = queue.take (call.takes queue.length) := by
  have width : ∀ {size}, size ≤ queue.length → (queue.take size).length = size := fun few => List.length_take_of_le few
  have little : ∀ {size}, size ≤ queue.length →
      littleEndian size (ofLittleEndian (queue.take size)) ++ [] = queue.take size := by
    intro size few
    have same := littleEndianOf (queue.take size)
    rwa [width few,← List.append_nil (littleEndian _ _)] at same
  have big : ∀ {size}, size ≤ queue.length → bigEndian size (ofBigEndian (queue.take size)) ++ [] = queue.take size := by
    intro size few
    have same := littleEndianOf (queue.take size).reverse
    rw [List.length_reverse,width few] at same
    rw [bigEndian,ofBigEndian,same,List.reverse_reverse,List.append_nil]
  cases call with
  | write | fill | writeInt8 | writeIntLE16 | writeIntLE32 | writeIntLE64 | writeIntBE16 | writeIntBE32
  | writeIntBE64 | skip => rfl
  | read | readString | readTo => exact List.append_nil _
  | readInt8 | readIntLE16 | readIntLE32 | readIntLE64 => exact little few
  | readIntBE16 | readIntBE32 | readIntBE64 => exact big few
  | peek =>
    obtain ⟨byte,rest,rfl⟩ := List.exists_cons_of_length_pos few
    rfl

theorem writesNothing {call : Call} (reads : call.isWrite = false) : call.written = [] := by
  cases call <;> first | rfl | cases reads

theorem writesFreely {call : Call} (writes : call.isWrite = true) : call.demand = 0 ∧ ∀ left, call.takes left = 0 := by
  cases call <;> first | exact ⟨rfl,fun _ => rfl⟩ | cases writes

end

section
variable {σ : Type} [MemoryStream σ]
open Cursor MemoryStream

def stateOf {α : Type} : EStateM.Result Thrown σ α → σ
  | .ok _ s | .error _ s => s

def answerOf {α : Type} : EStateM.Result Thrown σ α → Except Thrown α
  | .ok answer _ => .ok answer
  | .error thrown _ => .error thrown

def stepCall (s : σ) (call : Call) : σ := stateOf (perform call s)

def outcome (s : σ) (call : Call) : Except Thrown Answer := answerOf (perform call s)

/- What a call returns, or passes over. -/
def gone (s : σ) (call : Call) : Bytes :=
  match outcome s call with
  | .ok answer => answer.raw ++ call.passed (content s)
  | .error _ => []

def put (s : σ) (call : Call) : Bytes :=
  match outcome s call with
  | .ok _ => call.written
  | .error _ => []

theorem servedBalanced {s s' : σ} {call : Call} (few : call.demand ≤ (content s).length)
    (served : perform call s = .ok (call.answered (content s)) s')
    (left : content s' = (content s).drop (call.takes (content s).length) ++ call.written) :
    Balanced (content s) (put s call) (gone s call) (content (stepCall s call)) := by
  have ending : stepCall s call = s' := by rw [stepCall,served,stateOf]
  have out : outcome s call = .ok (call.answered (content s)) := by rw [outcome,served,answerOf]
  have given : put s call = call.written := by rw [put,out]
  have took : gone s call = (content s).take (call.takes (content s).length) := by
    rw [gone,out]
    exact answeredRaw few
  rw [ending,given,took,left]
  have both := (balancedTake (content s) (call.takes (content s).length)).trans (balancedPut _ call.written)
  rwa [List.nil_append,List.append_nil] at both

theorem refusedBalanced {s : σ} {call : Call} {thrown : Thrown} (refused : perform call s = .error thrown s) :
    Balanced (content s) (put s call) (gone s call) (content (stepCall s call)) := by
  have ending : stepCall s call = s := by rw [stepCall,refused,stateOf]
  have out : outcome s call = .error thrown := by rw [outcome,refused,answerOf]
  rw [ending,put,gone,out]
  exact balancedIdle (content s)

/- One call on any stream. -/
theorem stepBalanced (s : σ) (call : Call) : Balanced (content s) (put s call) (gone s call) (content (stepCall s call)) := by
  rcases Nat.lt_or_ge (content s).length call.demand with short | few
  · exact refusedBalanced (performRefused short)
  · by_cases able : call.isWrite = true → writable σ = true
    · obtain ⟨s',served,left⟩ := performServed able few
      exact servedBalanced few served left
    · obtain ⟨writes,locked⟩ := Classical.not_imp.mp able
      rcases performLocked (Bool.eq_false_of_not_eq_true locked) writes s with refused | ⟨nothing,empty⟩
      · exact refusedBalanced refused
      · have answer : call.answered (content s) = .done := by cases call <;> first | rfl | cases writes
        refine servedBalanced few (answer ▸ nothing) ?_
        rw [(writesFreely writes).2,empty,List.drop_zero,List.append_nil]

end

namespace StreamBuf

inductive Op
  | call (call : Call)
  | shrink
  deriving DecidableEq, Repr

def step (sb : StreamBuf) : Op → StreamBuf
  | .call c => stepCall sb c
  | .shrink => sb.shrink

def answer (sb : StreamBuf) : Op → Except Thrown Answer
  | .call c => outcome sb c
  | .shrink => .ok Answer.done

def taken (sb : StreamBuf) : Op → Bytes
  | .call c => gone sb c
  | .shrink => []

def Op.written : Op → Bytes
  | .call c => c.written
  | .shrink => []

/- The answers of a run. -/
def answers (sb : StreamBuf) (ops : List Op) : List (Except Thrown Answer) :=
  gathered step (fun sb op => [sb.answer op]) sb ops

theorem shrinkRest (sb : StreamBuf) : sb.shrink.rest = sb.rest := by
  unfold shrink
  split_ifs with empty ended
  · rfl
  · have nothing : sb.rest = [] := by rw [rest,ended,List.drop_length]
    rw [nothing]
    rfl
  · rfl
  · rfl

theorem performEnough {call : Call} {sb : StreamBuf} (few : call.demand ≤ sb.rest.length) :
    ∃ s' : StreamBuf, perform call sb = .ok (call.answered sb.rest) s' ∧
      s'.rest = sb.rest.drop (call.takes sb.rest.length) ++ call.written := performServed (fun _ => rfl) few

theorem performShort {call : Call} {sb : StreamBuf} (short : sb.rest.length < call.demand) :
    perform call sb = .error call.refusal sb := performRefused short

/- No write fails. -/
theorem putWritten (sb : StreamBuf) (call : Call) : put sb call = call.written := by
  rcases Nat.lt_or_ge sb.rest.length call.demand with short | few
  · have reads : call.isWrite = false := by
      by_contra writes
      have free := (writesFreely (Bool.eq_true_of_not_eq_false writes)).1
      omega
    rw [put,outcome,performShort short,answerOf,writesNothing reads]
  · obtain ⟨s',served,_⟩ := performEnough few
    rw [put,outcome,served,answerOf]

theorem opBalanced (sb : StreamBuf) (op : Op) : Balanced sb.rest op.written (sb.taken op) (sb.step op).rest := by
  cases op with
  | call c =>
    have balanced := stepBalanced sb c
    rwa [putWritten] at balanced
  | shrink =>
    have same : (sb.step .shrink).rest = sb.rest := shrinkRest sb
    rw [same]
    exact balancedIdle sb.rest

/- Two buffers with the same bytes to come, wherever these are stored. -/
theorem opAlike {sb other : StreamBuf} (same : sb.rest = other.rest) (op : Op) :
    sb.answer op = other.answer op ∧ (sb.step op).rest = (other.step op).rest := by
  cases op with
  | call c =>
    rcases Nat.lt_or_ge sb.rest.length c.demand with short | few
    · have here := performShort short
      have there := performShort (same ▸ short)
      simp only [answer,step,outcome,stepCall,here,there,answerOf,stateOf,same,and_self]
    · obtain ⟨s',here,left⟩ := performEnough few
      obtain ⟨t',there,left'⟩ := performEnough (same ▸ few)
      simp only [answer,step,outcome,stepCall,here,there,answerOf,stateOf,left,left',same,and_self]
  | shrink => exact ⟨rfl,(shrinkRest sb).trans (same.trans (shrinkRest other).symm)⟩

theorem answersAlike {sb other : StreamBuf} (same : sb.rest = other.rest) (ops : List Op) :
    answers sb ops = answers other ops := by
  induction ops generalizing sb other with
  | nil => rfl
  | cons op rest ih =>
    obtain ⟨first,next⟩ := opAlike same op
    rw [answers,gathered,first]
    exact congrArg _ (ih next)

/- What a buffer does for its callers. -/
structure Serves (sb : StreamBuf) : Prop where
  exact : ∀ len, 0 < len → len ≤ sb.rest.length → ∀ call ∈ [Call.read len,.readString len,.readTo len],
    ∃ raw s', perform call sb = .ok (.bytes raw) s' ∧ raw.length = len ∧ raw ++ s'.rest = sb.rest
  whole : ∀ call ∈ [Call.read 0,.readString 0],
    ∃ s', perform call sb = .ok (.bytes sb.rest) s' ∧ s'.rest = []
  served : ∀ call : Call, call.demand ≤ sb.rest.length → ∃ answer s', perform call sb = .ok answer s' ∧
    answer.raw ++ call.passed sb.rest = sb.rest.take (call.takes sb.rest.length) ∧
    s'.rest = sb.rest.drop (call.takes sb.rest.length) ++ call.written
  refused : ∀ call : Call, sb.rest.length < call.demand → perform call sb = .error call.refusal sb
  shrinks : sb.shrink.rest = sb.rest
  unseen : ∀ ops, answers sb.shrink ops = answers sb ops

/- A reading of some bytes, and one of none. -/
theorem readsSome {len : Nat} (filled : 0 < len) {call : Call}
    (among : call ∈ [Call.read len,.readString len,.readTo len]) (queue : Bytes) :
    call.demand = len ∧ call.takes queue.length = len ∧ call.written = [] ∧
      call.answered queue = .bytes (queue.take len) := by
  have some : len ≠ 0 := Nat.pos_iff_ne_zero.mp filled
  simp only [List.mem_cons,List.not_mem_nil,or_false] at among
  rcases among with rfl | rfl | rfl
  all_goals simp [Call.demand,Call.takes,Call.written,Call.answered,some]

theorem readsAll {call : Call} (among : call ∈ [Call.read 0,.readString 0]) (queue : Bytes) :
    call.demand = 0 ∧ call.takes queue.length = queue.length ∧ call.written = [] ∧
      call.answered queue = .bytes queue := by
  simp only [List.mem_cons,List.not_mem_nil,or_false] at among
  rcases among with rfl | rfl
  all_goals simp [Call.demand,Call.takes,Call.written,Call.answered]

theorem servesAlways (sb : StreamBuf) : Serves sb where
  exact := by
    intro len filled few call among
    obtain ⟨demand,takes,written,answered⟩ := readsSome filled among sb.rest
    obtain ⟨s',took,left⟩ := performEnough (demand.trans_le few)
    rw [answered] at took
    rw [takes,written,List.append_nil] at left
    refine ⟨_,s',took,List.length_take_of_le few,?_⟩
    rw [left,List.take_append_drop]
  whole := by
    intro call among
    obtain ⟨demand,takes,written,answered⟩ := readsAll among sb.rest
    obtain ⟨s',took,left⟩ := performEnough (demand.trans_le (Nat.zero_le _))
    rw [answered] at took
    rw [takes,written,List.append_nil,List.drop_length] at left
    exact ⟨s',took,left⟩
  served := by
    intro call few
    obtain ⟨s',took,left⟩ := performEnough few
    exact ⟨_,s',took,answeredRaw few,left⟩
  refused := fun _ short => performShort short
  shrinks := shrinkRest sb
  unseen := answersAlike (shrinkRest sb)

/- Whatever is called in whatever order: what is returned or passed over, and then what is still
to come, are the bytes written; and the buffer serves its callers in every state on the way. -/
theorem fifoLaw (sb : StreamBuf) (ops : List Op) :
    gathered step taken sb ops ++ (run step sb ops).rest = sb.rest ++ ops.flatMap Op.written ∧
      Always step Serves sb ops := by
  have balanced := balancedRun opBalanced sb ops
  rw [gatheredConst] at balanced
  exact ⟨balanced,fun _ _ => servesAlways _⟩

/- A reading of no bytes is one of all. -/
theorem zeroTakesAll : ¬ ∀ (sb : StreamBuf) (len : Nat) (raw : Bytes) (s' : StreamBuf),
    read len sb = .ok raw s' → raw.length = len := by
  intro claim
  have length := claim (ofVec [1,2]) 0 [1,2] _ (readWhole (ofVec [1,2]))
  cases length

end StreamBuf

/- The same for the stream over foreign memory, which refuses to be written. -/
theorem refBalanced (sb : StreamBufRef) (calls : List Call) :
    gathered stepCall gone sb calls ++ (run stepCall sb calls).rest = sb.rest ++ gathered stepCall put sb calls :=
  balancedRun stepBalanced sb calls

/- The connectors' parsers are modelled over the bytes alone; what they build on does there what the
stream does. -/
def Parses {σ α : Type} [Cursor σ] (e : Effect σ α) (p : StreamBufs.Parse α) : Prop :=
  ∀ s, match e s with
    | .ok a s' => p (Cursor.content s) = .ok (a,Cursor.content s')
    | .error _ _ => p (Cursor.content s) = .error .thrown

section
variable {σ α β : Type} [Cursor σ]
open Cursor

theorem parsesPure (a : α) : Parses (σ := σ) (pure a) (pure a) := fun _ => rfl

theorem parsesBind {e : Effect σ α} {p : StreamBufs.Parse α} {f : α → Effect σ β} {g : α → StreamBufs.Parse β}
    (first : Parses e p) (later : ∀ a, Parses (f a) (g a)) : Parses (e >>= f) (p >>= g) := by
  intro s
  have here := first s
  rw [StreamBufs.parseBind]
  cases out : e s with
  | ok a s' =>
    rw [out] at here
    rw [servedBind out,here]
    exact later a s'
  | error thrown s' =>
    rw [out] at here
    rw [refusedBind out,here]
    rfl

theorem parsesGetRaw (len : Nat) : Parses (σ := σ) (getRaw len) (StreamBufs.getRaw len) := by
  intro s
  rcases Nat.lt_or_ge (content s).length len with short | few
  · rw [getRawRefused short]
    exact if_pos short
  · have left := nextContent s len few
    rw [getRawServed few,StreamBufs.getRaw,if_neg (Nat.not_lt.mpr few),← left]

theorem parsesRead (len : Nat) : Parses (σ := σ) (read len) (StreamBufs.read len) := by
  intro s
  rcases Nat.lt_or_ge (content s).length len with short | few
  · rw [readRefused short]
    exact if_pos short
  · rw [StreamBufs.read,if_neg (Nat.not_lt.mpr few)]
    by_cases zero : len = 0
    · subst zero
      have nothing : content (next s (last s) (Nat.le_refl _)) = [] := by rw [nextContent,last,List.drop_length]
      rw [readWhole,if_pos rfl,← nothing]
    · have left := nextContent s len few
      rw [readServed few zero,if_neg zero,← left]

theorem parsesNumbers : Parses (σ := σ) getInt8 StreamBufs.readInt8 ∧ Parses (σ := σ) getIntLE16 StreamBufs.readIntLE16 ∧
    Parses (σ := σ) getIntLE32 StreamBufs.readIntLE32 ∧ Parses (σ := σ) getIntLE64 StreamBufs.readIntLE64 :=
  ⟨parsesBind (parsesGetRaw 1) fun _ => parsesPure _,parsesBind (parsesGetRaw 2) fun _ => parsesPure _,
    parsesBind (parsesGetRaw 4) fun _ => parsesPure _,parsesBind (parsesGetRaw 8) fun _ => parsesPure _⟩

end
end Ltsm.StreamFifo
