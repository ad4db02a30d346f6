import Mathlib.Data.List.Basic
import Mathlib.Tactic.Ring

/-! Byte streams: numbers in either byte order, and readers that consume a stream
from its front. `Reads r bytes a` says that `r` takes exactly `bytes`, whatever
follows them, and returns `a`; the rules below put readers together. -/
namespace Ltsm.Library

abbrev Bytes := List UInt8

/- The low `count` bytes of a number, the lowest first. -/
def littleEndian : Nat → Nat → Bytes
  | 0, _ => []
  | count + 1, value => UInt8.ofNat value :: littleEndian count (value / 256)

def ofLittleEndian : Bytes → Nat
  | [] => 0
  | byte :: rest => byte.toNat + 256 * ofLittleEndian rest

def bigEndian (count value : Nat) : Bytes := (littleEndian count value).reverse

def ofBigEndian (bytes : Bytes) : Nat := ofLittleEndian bytes.reverse

@[simp] theorem lengthLittleEndian (count value : Nat) : (littleEndian count value).length = count := by
  induction count generalizing value with
  | zero => rfl
  | succ count ih => simp [littleEndian,ih]

@[simp] theorem lengthBigEndian (count value : Nat) : (bigEndian count value).length = count := by
  simp [bigEndian]

theorem ofLittleEndianOf (count value : Nat) :
    ofLittleEndian (littleEndian count value) = value % 256 ^ count := by
  induction count generalizing value with
  | zero => simp [littleEndian,ofLittleEndian,Nat.mod_one]
  | succ count ih =>
    rw [littleEndian,ofLittleEndian,ih,Nat.pow_succ',Nat.mod_mul,UInt8.toNat_ofNat']

theorem ofBigEndianOf (count value : Nat) :
    ofBigEndian (bigEndian count value) = value % 256 ^ count := by
  rw [ofBigEndian,bigEndian,List.reverse_reverse,ofLittleEndianOf]

theorem ofLittleEndianLt (bytes : Bytes) : ofLittleEndian bytes < 256 ^ bytes.length := by
  induction bytes with
  | nil => simp [ofLittleEndian]
  | cons byte rest ih =>
    have low := byte.toNat_lt
    rw [ofLittleEndian,List.length_cons,Nat.pow_succ]
    omega

theorem littleEndianOf (bytes : Bytes) : littleEndian bytes.length (ofLittleEndian bytes) = bytes := by
  induction bytes with
  | nil => rfl
  | cons byte rest ih =>
    have low := byte.toNat_lt
    rw [List.length_cons,littleEndian,ofLittleEndian]
    have tail : (byte.toNat + 256 * ofLittleEndian rest) / 256 = ofLittleEndian rest := by omega
    have head : UInt8.ofNat (byte.toNat + 256 * ofLittleEndian rest) = byte := by
      apply UInt8.toNat_inj.mp
      rw [UInt8.toNat_ofNat']
      omega
    rw [tail,head,ih]

theorem ofLittleEndianAppend (low high : Bytes) :
    ofLittleEndian (low ++ high) = ofLittleEndian low + 256 ^ low.length * ofLittleEndian high := by
  induction low with
  | nil => simp [ofLittleEndian]
  | cons byte rest ih =>
    rw [List.cons_append,ofLittleEndian,ih,ofLittleEndian,List.length_cons,Nat.pow_succ']
    ring

theorem ofBigEndianCons (byte : UInt8) (rest : Bytes) :
    ofBigEndian (byte :: rest) = ofBigEndian rest + 256 ^ rest.length * byte.toNat := by
  rw [ofBigEndian,List.reverse_cons,ofLittleEndianAppend,List.length_reverse,ofLittleEndian,ofLittleEndian]
  rfl

/- A computation on the bytes that are still to come; `none` is an exception. -/
abbrev Reader (α : Type) := StateT Bytes Option α

def Reads {α : Type} (r : Reader α) (bytes : Bytes) (a : α) : Prop :=
  ∀ rest, r.run (bytes ++ rest) = some (a,rest)

def fail {α : Type} : Reader α := fun _ => none

/- A computation that takes nothing and may fail. -/
def ofOption {α : Type} (result : Option α) : Reader α := fun bytes => result.map fun a => (a,bytes)

def takeBytes (count : Nat) : Reader Bytes := fun bytes =>
  if count ≤ bytes.length then some (bytes.take count,bytes.drop count) else none

section
variable {α β : Type}

theorem readsPure (a : α) : Reads (pure a) [] a := fun _ => rfl

theorem readsBind {r : Reader α} {f : α → Reader β} {first second : Bytes} {a : α} {b : β}
    (one : Reads r first a) (two : Reads (f a) second b) : Reads (r >>= f) (first ++ second) b := by
  intro rest
  rw [StateT.run_bind,List.append_assoc,one]
  exact two rest

/- The rule for a reader that takes nothing more after its first part. -/
theorem readsMap {r : Reader α} {bytes : Bytes} {a : α} (one : Reads r bytes a) (f : α → β) :
    Reads (r >>= fun a => pure (f a)) bytes (f a) := by
  have both := readsBind one (f := fun a => pure (f a)) (readsPure (f a))
  rwa [List.append_nil] at both

theorem readsTake (bytes : Bytes) : Reads (takeBytes bytes.length) bytes bytes := by
  intro rest
  simp [StateT.run,takeBytes]

theorem readsOption (a : α) : Reads (ofOption (some a)) [] a := fun _ => rfl

theorem readsUnique {r : Reader α} {bytes : Bytes} {a b : α} (one : Reads r bytes a)
    (two : Reads r bytes b) : a = b := by
  have same := (one []).symm.trans (two [])
  exact congrArg Prod.fst (Option.some.inj same)

/- A fallible map none of whose steps fails. -/
theorem mapMSome {f : α → Option β} {g : α → β} {items : List α} (each : ∀ a ∈ items, f a = some (g a)) :
    items.mapM f = some (items.map g) := by
  induction items with
  | nil => rfl
  | cons a rest ih =>
    obtain ⟨first,later⟩ := List.forall_mem_cons.mp each
    rw [List.mapM_cons,first,ih later]
    rfl

theorem mapMForall {f : α → Option β} {items : List α} {out : List β} (made : items.mapM f = some out) :
    List.Forall₂ (fun a b => f a = some b) items out := by
  induction items generalizing out with
  | nil =>
    cases Option.some.inj made
    exact .nil
  | cons a rest ih =>
    rw [List.mapM_cons] at made
    obtain ⟨b,first,more⟩ := Option.bind_eq_some_iff.mp made
    obtain ⟨later,second,last⟩ := Option.bind_eq_some_iff.mp more
    cases Option.some.inj last
    exact .cons first (ih second)

theorem notReadsFail (bytes : Bytes) (a : α) : ¬Reads fail bytes a :=
  fun h => Option.some_ne_none _ (h []).symm

/-! What is read exactly, part by part: a reader goes on from where its first part is done. -/

theorem readsBindIff {r : Reader α} {f : α → Reader β} {first second : Bytes} {a : α} {b : β}
    (one : Reads r first a) : Reads (r >>= f) (first ++ second) b ↔ Reads (f a) second b := by
  constructor
  · intro all rest
    have ran := all rest
    rwa [StateT.run_bind,List.append_assoc,one] at ran
  · exact readsBind one

/- What is done with the value at the end takes nothing. -/
theorem readsMapIff {r : Reader α} {f : α → β} {bytes : Bytes} {a : α} (injective : ∀ b, f b = f a → b = a) :
    Reads (r >>= fun a => pure (f a)) bytes (f a) ↔ Reads r bytes a := by
  constructor
  · intro all rest
    have ran := all rest
    rw [StateT.run_bind] at ran
    obtain ⟨⟨b,left⟩,one,last⟩ := Option.bind_eq_some_iff.mp ran
    obtain ⟨value,ending⟩ := Prod.mk.inj (Option.some.inj last)
    rw [one,injective b value]
    exact congrArg (fun left => some (a,left)) ending
  · exact fun one => readsMap one f

/- A reader that is done has read everything. -/
theorem readsPureIff {a b : α} {bytes : Bytes} : Reads (pure a) bytes b ↔ bytes = [] ∧ a = b := by
  constructor
  · intro all
    have ran := Option.some.inj (all [])
    rw [List.append_nil] at ran
    exact ⟨congrArg Prod.snd ran,congrArg Prod.fst ran⟩
  · rintro ⟨rfl,rfl⟩
    exact readsPure a

theorem readsTakeIff {f : Bytes → Reader β} {count : Nat} {bytes : Bytes} {b : β} (enough : count ≤ bytes.length) :
    Reads (takeBytes count >>= f) bytes b ↔ Reads (f (bytes.take count)) (bytes.drop count) b := by
  have taken := readsTake (bytes.take count)
  rw [List.length_take,Nat.min_eq_left enough] at taken
  have parts : Reads (takeBytes count >>= f) (bytes.take count ++ bytes.drop count) b ↔
      Reads (f (bytes.take count)) (bytes.drop count) b := readsBindIff taken
  rwa [List.take_append_drop] at parts

theorem notReadsShort {f : Bytes → Reader β} {count : Nat} {bytes : Bytes} {b : β} (short : bytes.length < count) :
    ¬Reads (takeBytes count >>= f) bytes b := by
  intro all
  have ran := all []
  rw [StateT.run_bind,List.append_nil,StateT.run,takeBytes,if_neg (by omega)] at ran
  cases ran

theorem readsRestIff {f : Bytes → β} {count : Nat} {bytes : Bytes} {b : β} :
    Reads (takeBytes count >>= fun taken => pure (f taken)) bytes b ↔ count = bytes.length ∧ f bytes = b := by
  rcases Nat.lt_or_ge bytes.length count with short | enough
  · exact iff_of_false (notReadsShort short) fun all => by omega
  · rw [readsTakeIff enough,readsPureIff,List.drop_eq_nil_iff]
    constructor
    · rintro ⟨whole,same⟩
      rw [List.take_of_length_le whole] at same
      exact ⟨Nat.le_antisymm enough whole,same⟩
    · rintro ⟨rfl,same⟩
      rw [List.take_length]
      exact ⟨Nat.le_refl _,same⟩

theorem readsOptionIff {result : Option α} {f : α → Reader β} {bytes : Bytes} {b : β} :
    Reads (ofOption result >>= f) bytes b ↔ ∃ a, result = some a ∧ Reads (f a) bytes b := by
  cases result with
  | none => exact iff_of_false (notReadsFail bytes b) (by simp)
  | some a =>
    have same : ofOption (some a) >>= f = f a := rfl
    rw [same]
    simp

theorem failBind (f : α → Reader β) : (fail : Reader α) >>= f = fail := rfl

/- So many of one kind. -/
def recvMany (r : Reader α) : Nat → Reader (List α)
  | 0 => pure []
  | count + 1 => r >>= fun first => recvMany r count >>= fun rest => pure (first :: rest)

theorem readsMany {r : Reader α} {send : β → Bytes} {got : β → α} {items : List β}
    (each : ∀ item ∈ items, Reads r (send item) (got item)) :
    Reads (recvMany r items.length) (items.flatMap send) (items.map got) := by
  induction items with
  | nil => exact readsPure []
  | cons item rest ih =>
    obtain ⟨first,later⟩ := List.forall_mem_cons.mp each
    exact readsBind first (readsMap (ih later) _)

theorem flatMapFilled {send : β → Bytes} {items : List β} (filled : ∀ item ∈ items, send item ≠ []) :
    items.flatMap send = [] ↔ items = [] := by
  rw [List.flatMap_eq_nil_iff]
  constructor
  · intro none
    exact List.eq_nil_iff_forall_not_mem.mpr fun item inside => filled item inside (none item inside)
  · rintro rfl
    simp

/- A count below the number of items leaves some of them. -/
theorem readsManyIff {γ : Type} {r : Reader α} {send : β → Bytes} {got : β → α} {items : List β} {count : Nat}
    (each : ∀ item ∈ items, Reads r (send item) (got item)) (filled : ∀ item ∈ items, send item ≠ [])
    (few : count ≤ items.length) {f : List α → γ} {c : γ} :
    Reads (recvMany r count >>= fun all => pure (f all)) (items.flatMap send) c ↔
      count = items.length ∧ f (items.map got) = c := by
  have first := readsMany fun item inside => each item (List.mem_of_mem_take (i := count) inside)
  rw [List.length_take,Nat.min_eq_left few] at first
  have parts : items.flatMap send = (items.take count).flatMap send ++ (items.drop count).flatMap send := by
    rw [← List.flatMap_append,List.take_append_drop]
  rw [parts,readsBindIff first,readsPureIff,
    flatMapFilled fun item inside => filled item (List.mem_of_mem_drop inside),List.drop_eq_nil_iff]
  constructor
  · rintro ⟨whole,same⟩
    rw [List.take_of_length_le whole] at same
    exact ⟨Nat.le_antisymm few whole,same⟩
  · rintro ⟨rfl,same⟩
    rw [List.take_length]
    exact ⟨Nat.le_refl _,same⟩

/- What holds of all that a reader may give, whatever the bytes are. -/
def Yields (r : Reader α) (P : α → Prop) : Prop := ∀ bytes a rest, r.run bytes = some (a,rest) → P a

theorem yieldsOf {r : Reader α} {P : α → Prop} {bytes : Bytes} {a : α} (yields : Yields r P) (reads : Reads r bytes a) :
    P a := yields _ a [] (reads [])

theorem yieldsAny (r : Reader α) : Yields r fun _ => True := fun _ _ _ _ => trivial

theorem yieldsPure {P : α → Prop} {a : α} (holds : P a) : Yields (pure a) P := by
  intro bytes b rest ran
  cases ran
  exact holds

theorem yieldsFail (P : α → Prop) : Yields fail P := by
  intro bytes a rest ran
  cases ran

theorem yieldsOption {result : Option α} {P : α → Prop} (holds : ∀ a, result = some a → P a) :
    Yields (ofOption result) P := by
  intro bytes a rest ran
  obtain ⟨b,made,last⟩ := Option.map_eq_some_iff.mp ran
  cases last
  exact holds a made

theorem yieldsBind {r : Reader α} {f : α → Reader β} {P : α → Prop} {Q : β → Prop} (one : Yields r P)
    (two : ∀ a, P a → Yields (f a) Q) : Yields (r >>= f) Q := by
  intro bytes b rest ran
  rw [StateT.run_bind] at ran
  obtain ⟨⟨a,left⟩,first,second⟩ := Option.bind_eq_some_iff.mp ran
  exact two a (one _ _ _ first) _ _ _ second

theorem takeConsumes {count : Nat} {bytes taken rest : Bytes}
    (ran : (takeBytes count).run bytes = some (taken,rest)) : bytes.length = taken.length + rest.length ∧
      taken.length = count := by
  rw [StateT.run,takeBytes] at ran
  split at ran
  · cases Option.some.inj ran
    rw [List.length_take,List.length_drop]
    omega
  · cases ran

theorem yieldsTake (count : Nat) : Yields (takeBytes count) fun bytes => bytes.length = count :=
  fun _ _ _ ran => (takeConsumes ran).2

theorem yieldsMany {r : Reader α} {P : α → Prop} (each : Yields r P) (count : Nat) :
    Yields (recvMany r count) fun all => all.length = count ∧ ∀ a ∈ all, P a := by
  induction count with
  | zero => exact yieldsPure ⟨rfl,by simp⟩
  | succ count ih =>
    refine yieldsBind each fun first holds => yieldsBind ih fun rest others => yieldsPure ⟨?_,?_⟩
    · rw [List.length_cons,others.1]
    · exact List.forall_mem_cons.mpr ⟨holds,others.2⟩

end
end Ltsm.Library
