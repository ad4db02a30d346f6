import Ltsm.Library.CommandFeed

/-! What the connectors read out of a buffer: numbers and data behind checks of what is
left. A failed check asks for more bytes; a reading past the end throws something else. A
reading of zero bytes takes all that is left. -/
namespace Ltsm.StreamBufs
open Library

abbrev Parse := StateT Bytes (Except Fault)

section
variable {α β : Type}

def underflow : Parse α := fun _ => .error .underflow
def thrown : Parse α := fun _ => .error .thrown

/- A check of `last`. -/
def need (size : Nat) : Parse Unit := fun buf => if buf.length < size then .error .underflow else .ok ((),buf)

/- Also a span of the buffer that is skipped, or copied somewhere: here zero bytes are none. -/
def getRaw (len : Nat) : Parse Bytes := fun buf =>
  if buf.length < len then .error .thrown else .ok (buf.take len,buf.drop len)

def read (len : Nat) : Parse Bytes := fun buf =>
  if buf.length < len then .error .thrown
  else if len = 0 then .ok (buf,[])
  else .ok (buf.take len,buf.drop len)

def readInt8 : Parse UInt8 := do
  let raw ← getRaw 1
  pure (UInt8.ofNat (ofLittleEndian raw))

def readIntLE16 : Parse UInt16 := do
  let raw ← getRaw 2
  pure (UInt16.ofNat (ofLittleEndian raw))

def readIntLE32 : Parse UInt32 := do
  let raw ← getRaw 4
  pure (UInt32.ofNat (ofLittleEndian raw))

def readIntLE64 : Parse UInt64 := do
  let raw ← getRaw 8
  pure (UInt64.ofNat (ofLittleEndian raw))

theorem parseBind (p : Parse α) (f : α → Parse β) (buf : Bytes) :
    (p >>= f) buf = (p buf).bind fun out => f out.1 out.2 := rfl

theorem pureParse (a : α) (buf : Bytes) : (pure a : Parse α) buf = .ok (a,buf) := rfl

theorem needFew {size : Nat} {buf : Bytes} (few : buf.length < size) (p : Unit → Parse α) :
    (need size >>= p) buf = .error .underflow := by
  rw [parseBind,need,if_pos few]
  rfl

theorem needEnough {size : Nat} {buf : Bytes} (enough : size ≤ buf.length) (p : Unit → Parse α) :
    (need size >>= p) buf = p () buf := by
  rw [parseBind,need,if_neg (not_lt.mpr enough)]
  rfl

theorem getRawFew {size : Nat} {buf : Bytes} (few : buf.length < size) (f : Bytes → Parse α) :
    (getRaw size >>= f) buf = .error .thrown := by
  rw [parseBind,getRaw,if_pos few]
  rfl

@[simp] theorem getRawFront (front more : Bytes) (f : Bytes → Parse α) :
    (getRaw front.length >>= f) (front ++ more) = f front more := by
  rw [parseBind,getRaw,if_neg (by simp),List.take_left,List.drop_left]
  rfl

@[simp] theorem readInt8Front (v : UInt8) (more : Bytes) (f : UInt8 → Parse α) : (readInt8 >>= f) (v :: more) = f v more := by
  have front := getRawFront [v] more fun raw => f (UInt8.ofNat (ofLittleEndian raw))
  have value : UInt8.ofNat (ofLittleEndian [v]) = v := by simp [ofLittleEndian]
  rwa [value] at front

@[simp] theorem readIntLE16Front (v : UInt16) (more : Bytes) (f : UInt16 → Parse α) :
    (readIntLE16 >>= f) (littleEndian 2 v.toNat ++ more) = f v more := by
  have front := getRawFront (littleEndian 2 v.toNat) more fun raw => f (UInt16.ofNat (ofLittleEndian raw))
  have small : v.toNat < 256 ^ 2 := v.toNat_lt
  rwa [lengthLittleEndian,ofLittleEndianOf,Nat.mod_eq_of_lt small,UInt16.ofNat_toNat] at front

@[simp] theorem readIntLE32Front (v : UInt32) (more : Bytes) (f : UInt32 → Parse α) :
    (readIntLE32 >>= f) (littleEndian 4 v.toNat ++ more) = f v more := by
  have front := getRawFront (littleEndian 4 v.toNat) more fun raw => f (UInt32.ofNat (ofLittleEndian raw))
  have small : v.toNat < 256 ^ 4 := v.toNat_lt
  rwa [lengthLittleEndian,ofLittleEndianOf,Nat.mod_eq_of_lt small,UInt32.ofNat_toNat] at front

@[simp] theorem readIntLE64Front (v : UInt64) (more : Bytes) (f : UInt64 → Parse α) :
    (readIntLE64 >>= f) (littleEndian 8 v.toNat ++ more) = f v more := by
  have front := getRawFront (littleEndian 8 v.toNat) more fun raw => f (UInt64.ofNat (ofLittleEndian raw))
  have small : v.toNat < 256 ^ 8 := v.toNat_lt
  rwa [lengthLittleEndian,ofLittleEndianOf,Nat.mod_eq_of_lt small,UInt64.ofNat_toNat] at front

theorem readIntLE16Number {n : Nat} (small : n < 2 ^ 16) (more : Bytes) (f : UInt16 → Parse α) :
    (readIntLE16 >>= f) (littleEndian 2 n ++ more) = f (UInt16.ofNat n) more := by
  have front := readIntLE16Front (UInt16.ofNat n) more f
  rwa [UInt16.toNat_ofNat_of_lt' small] at front

theorem readIntLE32Number {n : Nat} (small : n < 2 ^ 32) (more : Bytes) (f : UInt32 → Parse α) :
    (readIntLE32 >>= f) (littleEndian 4 n ++ more) = f (UInt32.ofNat n) more := by
  have front := readIntLE32Front (UInt32.ofNat n) more f
  rwa [UInt32.toNat_ofNat_of_lt' small] at front

theorem readAll (f : Bytes → Parse α) (buf : Bytes) : (read 0 >>= f) buf = f buf [] := by
  rw [parseBind,read,if_neg (Nat.not_lt_zero _),if_pos rfl]
  rfl

theorem readFront {data : Bytes} (filled : data ≠ []) (more : Bytes) (f : Bytes → Parse α) :
    (read data.length >>= f) (data ++ more) = f data more := by
  rw [parseBind,read,if_neg (by simp),if_neg (by simpa using filled),List.take_left,List.drop_left]
  rfl

/- What a reading makes of the bytes of one value, and of their first ones. -/
structure Takes (p : Parse α) (bytes : Bytes) (a : α) (Closed : Bytes → Prop) (Splits : Nat → Prop) : Prop where
  whole : ∀ {more rest}, p (bytes ++ more) = .ok (a,rest) ↔ rest = more ∧ Closed more
  part : ∀ {n}, n < bytes.length → (p (bytes.take n) = .error .underflow ↔ Splits n)

theorem Takes.congr {p : Parse α} {bytes : Bytes} {a : α} {Closed Closed' : Bytes → Prop} {Splits Splits' : Nat → Prop}
    (takes : Takes p bytes a Closed Splits) (closed : ∀ more, Closed more ↔ Closed' more)
    (splits : ∀ n < bytes.length, Splits n ↔ Splits' n) : Takes p bytes a Closed' Splits' where
  whole := takes.whole.trans (and_congr_right fun _ => closed _)
  part := fun few => (takes.part few).trans (splits _ few)

theorem takesDone (a : α) : Takes (pure a) [] a (fun _ => True) (fun _ => True) where
  whole := by
    intro more rest
    rw [pureParse]
    simp [eq_comm]
  part := fun few => absurd few (Nat.not_lt_zero _)

/- A check of no more than there is to read. -/
theorem takesNeed {p : Parse α} {bytes : Bytes} {a : α} {size : Nat} {Closed : Bytes → Prop}
    (takes : Takes p bytes a Closed fun _ => True) (enough : size ≤ bytes.length) :
    Takes (need size >>= fun _ => p) bytes a Closed (fun _ => True) where
  whole := by
    intro more rest
    rw [needEnough (by rw [List.length_append]; omega)]
    exact takes.whole
  part := by
    intro n few
    rcases Nat.lt_or_ge n size with short | there
    · rw [needFew (by rw [List.length_take]; omega)]
      simp
    · rw [needEnough (by rw [List.length_take]; omega)]
      exact takes.part few

theorem takesMap {p : Parse α} {bytes : Bytes} {a : α} {Closed : Bytes → Prop} {Splits : Nat → Prop} {f : α → β}
    (takes : Takes p bytes a Closed Splits) (injective : ∀ b, f b = f a → b = a) :
    Takes (p >>= fun a => pure (f a)) bytes (f a) Closed Splits where
  whole := by
    intro more rest
    rw [← takes.whole,parseBind]
    cases p (bytes ++ more) with
    | error fault => simp [Except.bind]
    | ok out =>
      have same : f out.1 = f a ↔ out.1 = a := ⟨injective out.1,congrArg f⟩
      simp [Except.bind,pureParse,Prod.ext_iff,same]
  part := by
    intro n few
    rw [← takes.part few,parseBind]
    cases p (bytes.take n) with
    | error fault => simp [Except.bind]
    | ok out => simp [Except.bind,pureParse]

theorem takeCode (value extra : Nat) (bytes : Bytes) :
    (littleEndian 2 value ++ bytes).take (2 + extra) = littleEndian 2 value ++ bytes.take extra := by
  have front := @List.take_length_add_append _ (littleEndian 2 value) bytes extra
  rwa [lengthLittleEndian] at front

/- The rule for a check of so many bytes and the reading of them. -/
theorem takesFront {p q : Parse α} {front bytes : Bytes} {a : α} {size : Nat} {Closed : Bytes → Prop}
    {Splits : Nat → Prop} (takes : Takes q bytes a Closed Splits) (length : front.length = size)
    (reads : ∀ more, p (front ++ more) = q more) :
    Takes (need size >>= fun _ => p) (front ++ bytes) a Closed (fun n => size ≤ n → Splits (n - size)) where
  whole := by
    intro more rest
    rw [List.append_assoc,needEnough (by rw [List.length_append]; omega),reads]
    exact takes.whole
  part := by
    intro n few
    rcases Nat.lt_or_ge n size with short | enough
    · rw [needFew (by rw [List.length_take]; omega)]
      exact iff_of_true rfl fun enough => absurd enough (not_le.mpr short)
    · obtain ⟨extra,rfl⟩ := Nat.exists_eq_add_of_le enough
      rw [List.length_append] at few
      have split : (front ++ bytes).take (size + extra) = front ++ bytes.take extra := by
        rw [← length,List.take_length_add_append]
      rw [split,needEnough (by rw [List.length_append]; omega),reads,takes.part (by omega),Nat.add_sub_cancel_left]
      exact ⟨fun splits _ => splits,fun splits => splits enough⟩

/- Where what follows may be cut anywhere. -/
theorem takesFrontAny {p q : Parse α} {front bytes : Bytes} {a : α} {size : Nat} {Closed : Bytes → Prop}
    (takes : Takes q bytes a Closed fun _ => True) (length : front.length = size)
    (reads : ∀ more, p (front ++ more) = q more) :
    Takes (need size >>= fun _ => p) (front ++ bytes) a Closed (fun _ => True) :=
  (takesFront takes length reads).congr (fun _ => Iff.rfl) fun _ _ => by simp

/- A number that is read without a check is there, or the reading throws. -/
theorem takesNumber {f : UInt16 → Parse α} {v : UInt16} {bytes : Bytes} {a : α} {Closed : Bytes → Prop}
    {Splits : Nat → Prop} (takes : Takes (f v) bytes a Closed Splits) :
    Takes (readIntLE16 >>= f) (littleEndian 2 v.toNat ++ bytes) a Closed (fun n => 2 ≤ n ∧ Splits (n - 2)) where
  whole := by
    intro more rest
    rw [List.append_assoc,readIntLE16Front]
    exact takes.whole
  part := by
    intro n few
    rcases Nat.lt_or_ge n 2 with short | enough
    · have missing : ((littleEndian 2 v.toNat ++ bytes).take n).length < 2 := by
        rw [List.length_take]
        omega
      rw [readIntLE16,bind_assoc,getRawFew missing]
      exact iff_of_false (by simp) fun both => absurd both.1 (not_le.mpr short)
    · obtain ⟨extra,rfl⟩ := Nat.exists_eq_add_of_le enough
      rw [List.length_append,lengthLittleEndian] at few
      rw [takeCode,readIntLE16Front,takes.part (by omega),Nat.add_sub_cancel_left]
      exact (and_iff_right enough).symm

theorem takesThrown (bytes : Bytes) (a : α) : Takes thrown bytes a (fun _ => False) (fun _ => False) where
  whole := by simp [thrown]
  part := by simp [thrown]

theorem takesUnderflow (bytes : Bytes) (a : α) : Takes underflow bytes a (fun _ => False) (fun _ => True) where
  whole := by simp [underflow]
  part := by simp [underflow]

/- A value of fixed size. -/
theorem takesFixed {p : Parse α} {bytes : Bytes} {a : α} {size : Nat} (length : bytes.length = size)
    (reads : ∀ more, p (bytes ++ more) = (pure a : Parse α) more) :
    Takes (need size >>= fun _ => p) bytes a (fun _ => True) (fun _ => True) := by
  have front := takesFrontAny (takesDone a) length reads
  rwa [List.append_nil] at front

/- Data of no bytes takes what stands behind it. -/
theorem takesRest {data : Bytes} {make : Bytes → α} (injective : ∀ more, make more = make [] → more = []) :
    Takes (need data.length >>= fun _ => read data.length >>= fun data => pure (make data)) data (make data)
      (fun more => data = [] → more = []) (fun _ => True) := by
  by_cases empty : data = []
  · subst empty
    refine ⟨fun {more rest} => ?_,fun few => absurd few (Nat.not_lt_zero _)⟩
    rw [List.nil_append,List.length_nil,needEnough (Nat.zero_le _),readAll,pureParse]
    simp only [forall_const,Except.ok.injEq,Prod.mk.injEq]
    constructor
    · rintro ⟨same,rfl⟩
      exact ⟨(injective more same).symm,injective more same⟩
    · rintro ⟨rfl,rfl⟩
      exact ⟨rfl,rfl⟩
  · have fixed := takesFixed (p := read data.length >>= fun data => pure (make data)) rfl
      (fun more => readFront empty more _)
    exact fixed.congr (fun more => by simp [empty]) fun _ _ => Iff.rfl

/- Data that is read without a check is there, or the reading throws. -/
theorem takesUnchecked {data : Bytes} {make : Bytes → α} (injective : ∀ more, make more = make [] → more = []) :
    Takes (read data.length >>= fun data => pure (make data)) data (make data)
      (fun more => data = [] → more = []) (fun _ => False) where
  whole := by
    intro more rest
    have checked := @Takes.whole _ _ _ _ _ _ (@takesRest _ data make injective) more rest
    rwa [needEnough (by simp)] at checked
  part := by
    intro n few
    have short : (data.take n).length < data.length := by
      rw [List.length_take]
      omega
    rw [parseBind,read,if_pos short]
    exact iff_of_false (by simp [Except.bind]) id

/- A reading leaves no more than there was. -/
class Keeps (p : Parse α) : Prop where
  shorter : ∀ {buf a rest}, p buf = .ok (a,rest) → rest.length ≤ buf.length

instance (size : Nat) : Keeps (need size) where
  shorter ran := by
    rw [need] at ran
    split at ran <;> cases ran
    exact le_refl _

instance (len : Nat) : Keeps (getRaw len) where
  shorter ran := by
    rw [getRaw] at ran
    split at ran <;> cases ran
    simp

instance (len : Nat) : Keeps (read len) where
  shorter ran := by
    rw [read] at ran
    split at ran
    · cases ran
    · split at ran <;> cases ran <;> simp

instance (a : α) : Keeps (pure a) where
  shorter ran := by
    cases ran
    exact le_refl _

instance : Keeps (underflow : Parse α) where
  shorter ran := by cases ran

instance : Keeps (thrown : Parse α) where
  shorter ran := by cases ran

instance (p : Parse α) (f : α → Parse β) [one : Keeps p] [two : ∀ a, Keeps (f a)] : Keeps (p >>= f) where
  shorter {buf b rest} ran := by
    rw [parseBind] at ran
    cases first : p buf with
    | error fault =>
      rw [first] at ran
      cases ran
    | ok out =>
      rw [first] at ran
      exact ((two out.1).shorter ran).trans (one.shorter first)

instance (c : Prop) [Decidable c] (p q : Parse α) [one : Keeps p] [two : Keeps q] : Keeps (if c then p else q) := by
  split
  · exact one
  · exact two

instance : Keeps readInt8 := by unfold readInt8; infer_instance
instance : Keeps readIntLE16 := by unfold readIntLE16; infer_instance
instance : Keeps readIntLE32 := by unfold readIntLE32; infer_instance
instance : Keeps readIntLE64 := by unfold readIntLE64; infer_instance

/- A command behind its code. -/
theorem codeShrinks {f : UInt16 → Parse α} (keeps : ∀ code, Keeps (f code)) {buf : Bytes} {a : α} {rest : Bytes}
    (ran : (readIntLE16 >>= f) buf = .ok (a,rest)) : rest.length < buf.length := by
  rw [readIntLE16,bind_assoc] at ran
  by_cases few : buf.length < 2
  · rw [getRawFew few] at ran
    cases ran
  · rw [parseBind,getRaw,if_neg few] at ran
    have later := (keeps _).shorter ran
    rw [List.length_drop] at later
    omega

end

theorem codeInHeader : 2 ≤ 3 := Nat.le_succ 2

/- The commands of a connector: each has a code and a body, and `dispatch` knows the codes. -/
structure Format (S C : Type) where
  header : Nat
  dispatch : S → UInt16 → Parse C
  keeps : ∀ s code, Keeps (dispatch s code)
  Valid : C → Prop
  code : C → UInt16
  body : C → Bytes
  Closed : S → C → Bytes → Prop
  Splits : S → C → Nat → Prop
  afterCode : 2 ≤ header
  filled : ∀ c, header ≤ 2 + (body c).length
  takes : ∀ s c, Valid c → Takes (dispatch s (code c)) (body c) c (Closed s c) (Splits s c)

namespace Format
variable {S C : Type} (format : Format S C) (execute : S → C → Option S)

def feeder : Feeder S C where
  header := format.header
  parse s := readIntLE16 >>= format.dispatch s
  execute := execute
  shrinks := codeShrinks (format.keeps _)

def coding : Coding (format.feeder execute) where
  Valid := format.Valid
  encode c := littleEndian 2 (format.code c).toNat ++ format.body c
  Closed := format.Closed
  Splits s c n := format.Splits s c (n - 2)
  any := Nat.lt_of_lt_of_le (by decide) format.afterCode
  filled := by
    intro c _
    rw [List.length_append,lengthLittleEndian]
    exact format.filled c
  whole := by
    intro s c more rest valid
    rw [List.append_assoc]
    simp only [feeder]
    rw [readIntLE16Front]
    exact (format.takes s c valid).whole
  part := by
    intro s c n valid there few
    have after := format.afterCode
    obtain ⟨extra,rfl⟩ := Nat.exists_eq_add_of_le (format.afterCode.trans there)
    rw [List.length_append,lengthLittleEndian] at few
    simp only [feeder]
    rw [takeCode,readIntLE16Front,(format.takes s c valid).part (by omega),Nat.add_sub_cancel_left]

end Format

end Ltsm.StreamBufs
