import Ltsm.StreamBufs

/-! The commands of the token channel, as the client's connector reads them. -/
namespace Ltsm.Pkcs11Commands
open Library StreamBufs

namespace Pkcs11Op

def ProtoVer : Nat := 1
def Init : Nat := 0xFC01
def GetSlots : Nat := 0xFC02
def GetSlotMechanisms : Nat := 0xFC03
def GetSlotCertificates : Nat := 0xFC04
def SignData : Nat := 0xFC11
def DecryptData : Nat := 0xFC12

end Pkcs11Op

/- What is signed or decrypted, and with which key. -/
structure KeyUse where
  slotId : UInt64
  mechType : UInt64
  pin : Bytes
  certId : Bytes
  values : Bytes
  deriving DecidableEq, Repr

inductive Command
  | init
  | getSlots (tokenPresentOnly : Bool)
  | getSlotMechanisms (slotId : UInt64)
  | getSlotCertificates (slotId : UInt64) (havePublicPrivateKeys : Bool)
  | signData (use : KeyUse)
  | decryptData (use : KeyUse)
  deriving DecidableEq, Repr

def pkcs11Init : Parse Command := do
  need 2
  let protoVer ← readIntLE16
  if protoVer.toNat ≠ Pkcs11Op.ProtoVer then thrown else pure .init

def pkcs11GetSlots : Parse Command := do
  need 1
  let tokenPresentOnly ← readInt8
  pure (.getSlots (tokenPresentOnly ≠ 0))

def pkcs11GetSlotMechanisms : Parse Command := do
  need 8
  let slotId ← readIntLE64
  pure (.getSlotMechanisms slotId)

def pkcs11GetSlotCertificates : Parse Command := do
  need 9
  let slotId ← readIntLE64
  let havePublicPrivateKeys ← readInt8
  pure (.getSlotCertificates slotId (havePublicPrivateKeys ≠ 0))

/- The values are not checked for, nor is the length of the certificate's id. -/
def readValues (make : Bytes → Command) : Parse Command := do
  need 4
  let valLen ← readIntLE32
  let values ← read valLen.toNat
  pure (make values)

def readCertId (make : Bytes → Bytes → Command) : Parse Command := do
  let certLen ← readIntLE16
  need certLen.toNat
  let certId ← read certLen.toNat
  readValues (make certId)

/- What pkcs11SignData and pkcs11DecryptData read. -/
def readKeyUse (make : KeyUse → Command) : Parse Command := do
  need 18
  let slotId ← readIntLE64
  let mechType ← readIntLE64
  let pinLen ← readIntLE16
  need pinLen.toNat
  let pin ← read pinLen.toNat
  readCertId fun certId values => make ⟨slotId,mechType,pin,certId,values⟩

def pkcs11SignData : Parse Command := readKeyUse .signData
def pkcs11DecryptData : Parse Command := readKeyUse .decryptData

def pkcs11Cmd (cmd : UInt16) : Parse Command :=
  if cmd.toNat = Pkcs11Op.Init then pkcs11Init
  else if cmd.toNat = Pkcs11Op.GetSlots then pkcs11GetSlots
  else if cmd.toNat = Pkcs11Op.GetSlotMechanisms then pkcs11GetSlotMechanisms
  else if cmd.toNat = Pkcs11Op.GetSlotCertificates then pkcs11GetSlotCertificates
  else if cmd.toNat = Pkcs11Op.SignData then pkcs11SignData
  else if cmd.toNat = Pkcs11Op.DecryptData then pkcs11DecryptData
  else thrown

def code : Command → UInt16
  | .init => UInt16.ofNat Pkcs11Op.Init
  | .getSlots _ => UInt16.ofNat Pkcs11Op.GetSlots
  | .getSlotMechanisms _ => UInt16.ofNat Pkcs11Op.GetSlotMechanisms
  | .getSlotCertificates .. => UInt16.ofNat Pkcs11Op.GetSlotCertificates
  | .signData _ => UInt16.ofNat Pkcs11Op.SignData
  | .decryptData _ => UInt16.ofNat Pkcs11Op.DecryptData

def flagByte (val : Bool) : UInt8 := if val then 1 else 0

def useBytes (use : KeyUse) : Bytes :=
  littleEndian 8 use.slotId.toNat ++ littleEndian 8 use.mechType.toNat ++ littleEndian 2 use.pin.length ++ use.pin ++
    littleEndian 2 use.certId.length ++ use.certId ++ littleEndian 4 use.values.length ++ use.values

def body : Command → Bytes
  | .init => littleEndian 2 Pkcs11Op.ProtoVer
  | .getSlots tokenPresentOnly => [flagByte tokenPresentOnly]
  | .getSlotMechanisms slotId => littleEndian 8 slotId.toNat
  | .getSlotCertificates slotId havePublicPrivateKeys => littleEndian 8 slotId.toNat ++ [flagByte havePublicPrivateKeys]
  | .signData use => useBytes use
  | .decryptData use => useBytes use

def keyUse : Command → Option KeyUse
  | .signData use => some use
  | .decryptData use => some use
  | _ => none

def Valid (cmd : Command) : Prop :=
  ∀ use ∈ keyUse cmd, use.pin.length < 2 ^ 16 ∧ use.certId.length < 2 ^ 16 ∧ use.values.length < 2 ^ 32

/- An empty pin or id takes all that is left, and empty values do. -/
def Closed (cmd : Command) (more : Bytes) : Prop :=
  ∀ use ∈ keyUse cmd, use.pin ≠ [] ∧ use.certId ≠ [] ∧ (use.values = [] → more = [])

/- So much of a body asks for more: not a part of the length behind the pin, nor of the values. -/
def UseSplits (use : KeyUse) (n : Nat) : Prop :=
  n < 18 + use.pin.length ∨ use.pin ≠ [] ∧ 20 + use.pin.length ≤ n ∧
    (use.certId = [] ∨ n < 24 + use.pin.length + use.certId.length)

def Splits (cmd : Command) (n : Nat) : Prop := ∀ use ∈ keyUse cmd, UseSplits use n

instance : Keeps pkcs11Init := by unfold pkcs11Init; infer_instance
instance : Keeps pkcs11GetSlots := by unfold pkcs11GetSlots; infer_instance
instance : Keeps pkcs11GetSlotMechanisms := by unfold pkcs11GetSlotMechanisms; infer_instance
instance : Keeps pkcs11GetSlotCertificates := by unfold pkcs11GetSlotCertificates; infer_instance
instance (make : Bytes → Command) : Keeps (readValues make) := by unfold readValues; infer_instance
instance (make : Bytes → Bytes → Command) : Keeps (readCertId make) := by unfold readCertId; infer_instance
instance (make : KeyUse → Command) : Keeps (readKeyUse make) := by unfold readKeyUse; infer_instance
instance : Keeps pkcs11SignData := by unfold pkcs11SignData; infer_instance
instance : Keeps pkcs11DecryptData := by unfold pkcs11DecryptData; infer_instance

theorem pkcs11CmdKeeps (cmd : UInt16) : Keeps (pkcs11Cmd cmd) := by
  unfold pkcs11Cmd
  infer_instance

theorem flagByteSet (val : Bool) : decide (flagByte val ≠ 0) = val := by cases val <;> rfl

theorem pkcs11InitTakes : Takes pkcs11Init (body .init) .init (fun _ => True) (fun _ => True) := by
  refine takesFixed (by simp [body]) fun more => ?_
  have one : Pkcs11Op.ProtoVer < 2 ^ 16 := by decide
  have same : ¬ (UInt16.ofNat Pkcs11Op.ProtoVer).toNat ≠ Pkcs11Op.ProtoVer := by decide
  rw [body,readIntLE16Number one,if_neg same]

theorem pkcs11GetSlotsTakes (only : Bool) :
    Takes pkcs11GetSlots (body (.getSlots only)) (.getSlots only) (fun _ => True) (fun _ => True) := by
  refine takesFixed (by simp [body]) fun more => ?_
  rw [body,List.singleton_append,readInt8Front,flagByteSet]

theorem pkcs11GetSlotMechanismsTakes (slotId : UInt64) :
    Takes pkcs11GetSlotMechanisms (body (.getSlotMechanisms slotId)) (.getSlotMechanisms slotId) (fun _ => True)
      (fun _ => True) :=
  takesFixed (by simp [body]) fun more => by rw [body,readIntLE64Front]

theorem pkcs11GetSlotCertificatesTakes (slotId : UInt64) (pair : Bool) :
    Takes pkcs11GetSlotCertificates (body (.getSlotCertificates slotId pair)) (.getSlotCertificates slotId pair)
      (fun _ => True) (fun _ => True) := by
  refine takesFixed (by simp [body]) fun more => ?_
  rw [body,List.append_assoc,readIntLE64Front,List.singleton_append,readInt8Front,flagByteSet]

theorem readValuesTakes {make : Bytes → Command} (injective : ∀ a b, make a = make b → a = b) (values : Bytes)
    (small : values.length < 2 ^ 32) :
    Takes (readValues make) (littleEndian 4 values.length ++ values) (make values) (fun more => values = [] → more = [])
      (fun n => n < 4) := by
  have rest := @takesUnchecked _ values make fun more same => injective _ _ same
  have front : Takes (readValues make) (littleEndian 4 values.length ++ values) (make values)
      (fun more => values = [] → more = []) (fun n => 4 ≤ n → False) := takesFront rest (by simp) fun more => by
    rw [readIntLE32Number small,UInt32.toNat_ofNat_of_lt' small]
  exact front.congr (fun _ => Iff.rfl) fun n _ => by simp

/- An id of no bytes leaves nothing for the length of the values. -/
theorem readCertIdTakes {make : Bytes → Bytes → Command} (certId values : Bytes)
    (injective : ∀ a b, make certId a = make certId b → a = b) (certSmall : certId.length < 2 ^ 16)
    (small : values.length < 2 ^ 32) :
    Takes (readCertId make) (littleEndian 2 certId.length ++ (certId ++ (littleEndian 4 values.length ++ values)))
      (make certId values) (fun more => certId ≠ [] ∧ (values = [] → more = []))
      (fun n => 2 ≤ n ∧ (certId = [] ∨ n < 6 + certId.length)) := by
  have number : (UInt16.ofNat certId.length).toNat = certId.length := UInt16.toNat_ofNat_of_lt' certSmall
  have behind : Takes (need certId.length >>= fun _ => read certId.length >>= fun certId => readValues (make certId))
      (certId ++ (littleEndian 4 values.length ++ values)) (make certId values)
      (fun more => certId ≠ [] ∧ (values = [] → more = [])) (fun n => certId = [] ∨ n < 4 + certId.length) := by
    by_cases empty : certId = []
    · subst empty
      have stops : (need 0 >>= fun _ => read 0 >>= fun certId => readValues (make certId)) = underflow := by
        funext buf
        rw [needEnough (Nat.zero_le _),readAll,readValues,needFew (by simp)]
        rfl
      rw [List.length_nil,stops]
      exact (takesUnderflow _ _).congr (by simp) (by simp)
    · have reads := fun more => readFront empty more fun certId => readValues (make certId)
      have front := takesFront (readValuesTakes injective values small) rfl reads
      exact front.congr (fun more => by simp [empty]) fun n _ => by simp [empty]; omega
  have whole := takesNumber (f := fun certLen => need certLen.toNat >>= fun _ => read certLen.toNat >>= fun certId =>
    readValues (make certId)) (v := UInt16.ofNat certId.length) (by rw [number]; exact behind)
  rw [number] at whole
  refine whole.congr (fun _ => Iff.rfl) fun n _ => ?_
  refine and_congr_right fun enough => or_congr_right ?_
  omega

/- A pin of no bytes leaves nothing for the length of the id. -/
theorem readPinTakes {make : Bytes → Bytes → Bytes → Command} (pin certId values : Bytes)
    (injective : ∀ a b, make pin certId a = make pin certId b → a = b) (certSmall : certId.length < 2 ^ 16)
    (small : values.length < 2 ^ 32) :
    Takes (need pin.length >>= fun _ => read pin.length >>= fun pin => readCertId (make pin))
      (pin ++ (littleEndian 2 certId.length ++ (certId ++ (littleEndian 4 values.length ++ values))))
      (make pin certId values) (fun more => pin ≠ [] ∧ certId ≠ [] ∧ (values = [] → more = []))
      (fun n => n < pin.length ∨ pin ≠ [] ∧ 2 + pin.length ≤ n ∧ (certId = [] ∨ n < 6 + pin.length + certId.length)) := by
  by_cases empty : pin = []
  · subst empty
    have stops : (need 0 >>= fun _ => read 0 >>= fun pin => readCertId (make pin)) = thrown := by
      funext buf
      rw [needEnough (Nat.zero_le _),readAll,readCertId,readIntLE16,bind_assoc,getRawFew (by simp)]
      rfl
    rw [List.length_nil,stops]
    exact (takesThrown _ _).congr (by simp) (by simp)
  · have reads := fun more => readFront empty more fun pin => readCertId (make pin)
    have front := takesFront (readCertIdTakes certId values injective certSmall small) rfl reads
    refine front.congr (fun more => by simp [empty]) fun n _ => ?_
    rcases Nat.lt_or_ge n pin.length with few | enough
    · exact iff_of_true (fun enough => absurd few (not_lt.mpr enough)) (Or.inl few)
    · rw [forall_prop_of_true enough,or_iff_right (not_lt.mpr enough),and_iff_right empty]
      exact and_congr (by omega) (or_congr_right (by omega))

theorem readKeyUseTakes {make : KeyUse → Command} (injective : ∀ a b, make a = make b → a = b) (use : KeyUse)
    (pinSmall : use.pin.length < 2 ^ 16) (certSmall : use.certId.length < 2 ^ 16)
    (small : use.values.length < 2 ^ 32) :
    Takes (readKeyUse make) (useBytes use) (make use)
      (fun more => use.pin ≠ [] ∧ use.certId ≠ [] ∧ (use.values = [] → more = [])) (UseSplits use) := by
  have values : ∀ a b, make ⟨use.slotId,use.mechType,use.pin,use.certId,a⟩ =
      make ⟨use.slotId,use.mechType,use.pin,use.certId,b⟩ → a = b := fun a b same => by
    injection injective _ _ same
  have rest := @readPinTakes (fun pin certId values => make ⟨use.slotId,use.mechType,pin,certId,values⟩)
    use.pin use.certId use.values values certSmall small
  have shape : useBytes use = (littleEndian 8 use.slotId.toNat ++ littleEndian 8 use.mechType.toNat ++
      littleEndian 2 use.pin.length) ++ (use.pin ++ (littleEndian 2 use.certId.length ++ (use.certId ++
        (littleEndian 4 use.values.length ++ use.values)))) := by simp [useBytes]
  have whole : Takes (readKeyUse make) _ _ _ _ := takesFront rest
    (show (littleEndian 8 use.slotId.toNat ++ littleEndian 8 use.mechType.toNat ++ littleEndian 2 use.pin.length).length =
      18 by simp) fun more => by
    rw [List.append_assoc,List.append_assoc,readIntLE64Front,readIntLE64Front,readIntLE16Number pinSmall,
      UInt16.toNat_ofNat_of_lt' pinSmall]
  rw [shape]
  refine whole.congr (fun _ => Iff.rfl) fun n _ => ?_
  rcases Nat.lt_or_ge n 18 with few | enough
  · exact iff_of_true (fun enough => absurd few (not_lt.mpr enough)) (Or.inl (by omega))
  · rw [UseSplits,forall_prop_of_true enough]
    refine or_congr (by omega) (and_congr_right fun _ => and_congr (by omega) (or_congr_right (by omega)))

theorem pkcs11CmdTakes (cmd : Command) (valid : Valid cmd) :
    Takes (pkcs11Cmd (code cmd)) (body cmd) cmd (Closed cmd) (Splits cmd) := by
  cases cmd with
  | init =>
    have here : pkcs11Cmd (code .init) = pkcs11Init := rfl
    rw [here]
    exact pkcs11InitTakes.congr (fun _ => by simp [Closed,keyUse]) fun _ _ => by simp [Splits,keyUse]
  | getSlots only =>
    have here : pkcs11Cmd (code (.getSlots only)) = pkcs11GetSlots := rfl
    rw [here]
    exact (pkcs11GetSlotsTakes only).congr (fun _ => by simp [Closed,keyUse]) fun _ _ => by simp [Splits,keyUse]
  | getSlotMechanisms slotId =>
    have here : pkcs11Cmd (code (.getSlotMechanisms slotId)) = pkcs11GetSlotMechanisms := rfl
    rw [here]
    exact (pkcs11GetSlotMechanismsTakes slotId).congr (fun _ => by simp [Closed,keyUse]) fun _ _ => by
      simp [Splits,keyUse]
  | getSlotCertificates slotId pair =>
    have here : pkcs11Cmd (code (.getSlotCertificates slotId pair)) = pkcs11GetSlotCertificates := rfl
    rw [here]
    exact (pkcs11GetSlotCertificatesTakes slotId pair).congr (fun _ => by simp [Closed,keyUse]) fun _ _ => by
      simp [Splits,keyUse]
  | signData use =>
    obtain ⟨pinSmall,certSmall,small⟩ := valid use rfl
    have here : pkcs11Cmd (code (.signData use)) = readKeyUse .signData := rfl
    rw [here]
    exact (readKeyUseTakes (fun _ _ same => by injection same) use pinSmall certSmall small).congr
      (fun _ => by simp [Closed,keyUse]) fun _ _ => by simp [Splits,keyUse]
  | decryptData use =>
    obtain ⟨pinSmall,certSmall,small⟩ := valid use rfl
    have here : pkcs11Cmd (code (.decryptData use)) = readKeyUse .decryptData := rfl
    rw [here]
    exact (readKeyUseTakes (fun _ _ same => by injection same) use pinSmall certSmall small).congr
      (fun _ => by simp [Closed,keyUse]) fun _ _ => by simp [Splits,keyUse]

theorem bodyFilled (cmd : Command) : 3 ≤ 2 + (body cmd).length := by
  cases cmd <;> simp [body,useBytes] <;> omega

/- `S` is the token and its sessions. -/
def format (S : Type) : Format S Command where
  header := 3
  dispatch _ := pkcs11Cmd
  keeps _ := pkcs11CmdKeeps
  Valid := Valid
  code := code
  body := body
  Closed _ := Closed
  Splits _ := Splits
  afterCode := codeInHeader
  filled := bodyFilled
  takes _ := pkcs11CmdTakes

end Ltsm.Pkcs11Commands
