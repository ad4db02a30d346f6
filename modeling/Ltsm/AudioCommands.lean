import Ltsm.StreamBufs

/-! The commands of the audio channel, as the client's connector reads them. -/
namespace Ltsm.AudioCommands
open Library StreamBufs

namespace AudioOp

def ProtoVer : Nat := 1
def Init : Nat := 0xFE01
def Data : Nat := 0xFE02
def Silent : Nat := 0xFE03

end AudioOp

structure AudioFormat where
  type : UInt16
  channels : UInt16
  samplePerSec : UInt32
  bitsPerSample : UInt16
  deriving DecidableEq, Repr

inductive Command
  | init (formats : List AudioFormat)
  | data (bytes : Bytes)
  | silent (len : UInt32)
  deriving DecidableEq, Repr

def readFormats : Nat → Parse (List AudioFormat)
  | 0 => pure []
  | numEnc + 1 => do
    let type ← readIntLE16
    let channels ← readIntLE16
    let samplePerSec ← readIntLE32
    let bitsPerSample ← readIntLE16
    let formats ← readFormats numEnc
    pure (⟨type,channels,samplePerSec,bitsPerSample⟩ :: formats)

def audioOpInit : Parse Command := do
  need 4
  let protoVer ← readIntLE16
  let numEnc ← readIntLE16
  if protoVer.toNat ≠ AudioOp.ProtoVer then thrown
  else do
    need (numEnc.toNat * 10)
    let formats ← readFormats numEnc.toNat
    pure (.init formats)

/- The data is a span of the buffer, and skipped. -/
def audioOpData : Parse Command := do
  need 4
  let len ← readIntLE32
  need len.toNat
  let bytes ← getRaw len.toNat
  pure (.data bytes)

def audioOpSilent : Parse Command := do
  need 4
  let len ← readIntLE32
  pure (.silent len)

def audioCmd (cmd : UInt16) : Parse Command :=
  if cmd.toNat = AudioOp.Init then audioOpInit
  else if cmd.toNat = AudioOp.Data then audioOpData
  else if cmd.toNat = AudioOp.Silent then audioOpSilent
  else thrown

def code : Command → UInt16
  | .init _ => UInt16.ofNat AudioOp.Init
  | .data _ => UInt16.ofNat AudioOp.Data
  | .silent _ => UInt16.ofNat AudioOp.Silent

def formatBytes (format : AudioFormat) : Bytes :=
  littleEndian 2 format.type.toNat ++ littleEndian 2 format.channels.toNat ++
    littleEndian 4 format.samplePerSec.toNat ++ littleEndian 2 format.bitsPerSample.toNat

def body : Command → Bytes
  | .init formats =>
    littleEndian 2 AudioOp.ProtoVer ++ littleEndian 2 formats.length ++ formats.flatMap formatBytes
  | .data bytes => littleEndian 4 bytes.length ++ bytes
  | .silent len => littleEndian 4 len.toNat

def Valid : Command → Prop
  | .init formats => formats.length < 2 ^ 16
  | .data bytes => bytes.length < 2 ^ 32
  | .silent _ => True

instance (numEnc : Nat) : Keeps (readFormats numEnc) := by
  induction numEnc with
  | zero => unfold readFormats; infer_instance
  | succ numEnc ih => unfold readFormats; infer_instance

instance : Keeps audioOpInit := by unfold audioOpInit; infer_instance
instance : Keeps audioOpData := by unfold audioOpData; infer_instance
instance : Keeps audioOpSilent := by unfold audioOpSilent; infer_instance

theorem audioCmdKeeps (cmd : UInt16) : Keeps (audioCmd cmd) := by
  unfold audioCmd
  infer_instance

theorem readFormatsFront (formats : List AudioFormat) (more : Bytes) (f : List AudioFormat → Parse Command) :
    (readFormats formats.length >>= f) (formats.flatMap formatBytes ++ more) = f formats more := by
  induction formats generalizing f with
  | nil => rfl
  | cons format formats ih =>
    simp only [List.length_cons,readFormats,List.flatMap_cons,formatBytes,List.append_assoc,bind_assoc,pure_bind,
      readIntLE16Front,readIntLE32Front]
    exact ih _

theorem formatsLength (formats : List AudioFormat) : (formats.flatMap formatBytes).length = formats.length * 10 := by
  induction formats with
  | nil => rfl
  | cons format formats ih =>
    rw [List.flatMap_cons,List.length_append,ih,List.length_cons]
    simp [formatBytes]
    omega

theorem audioOpInitTakes (formats : List AudioFormat) (valid : formats.length < 2 ^ 16) :
    Takes audioOpInit (body (.init formats)) (.init formats) (fun _ => True) (fun _ => True) := by
  have list : Takes (need (formats.length * 10) >>= fun _ => readFormats formats.length >>= fun formats =>
      pure (Command.init formats)) (formats.flatMap formatBytes) (.init formats) (fun _ => True) (fun _ => True) :=
    takesFixed (formatsLength formats) fun more => readFormatsFront formats more _
  refine takesFrontAny list (by simp) fun more => ?_
  have same : ¬ (UInt16.ofNat AudioOp.ProtoVer).toNat ≠ AudioOp.ProtoVer := by decide
  have one : AudioOp.ProtoVer < 2 ^ 16 := by decide
  rw [List.append_assoc,readIntLE16Number one,readIntLE16Number valid]
  simp only [if_neg same,UInt16.toNat_ofNat_of_lt' valid]

theorem audioOpDataTakes (bytes : Bytes) (valid : bytes.length < 2 ^ 32) :
    Takes audioOpData (body (.data bytes)) (.data bytes) (fun _ => True) (fun _ => True) := by
  have data : Takes (need bytes.length >>= fun _ => getRaw bytes.length >>= fun bytes => pure (Command.data bytes)) bytes
      (.data bytes) (fun _ => True) (fun _ => True) := takesFixed rfl fun more => getRawFront bytes more _
  refine takesFrontAny data (by simp) fun more => ?_
  rw [readIntLE32Number valid,UInt32.toNat_ofNat_of_lt' valid]

theorem audioOpSilentTakes (len : UInt32) :
    Takes audioOpSilent (body (.silent len)) (.silent len) (fun _ => True) (fun _ => True) :=
  takesFixed (by simp [body]) fun more => by rw [body,readIntLE32Front]

theorem audioCmdTakes (cmd : Command) (valid : Valid cmd) :
    Takes (audioCmd (code cmd)) (body cmd) cmd (fun _ => True) (fun _ => True) := by
  cases cmd with
  | init formats => exact audioOpInitTakes formats valid
  | data bytes => exact audioOpDataTakes bytes valid
  | silent len => exact audioOpSilentTakes len

theorem bodyFilled (cmd : Command) : 3 ≤ 2 + (body cmd).length := by
  cases cmd <;> simp [body] <;> omega

/- `S` is what the commands change: the player, the decoder. -/
def format (S : Type) : Format S Command where
  header := 3
  dispatch _ := audioCmd
  keeps _ := audioCmdKeeps
  Valid := Valid
  code := code
  body := body
  Closed _ _ _ := True
  Splits _ _ _ := True
  afterCode := codeInHeader
  filled := bodyFilled
  takes _ := audioCmdTakes

end Ltsm.AudioCommands
