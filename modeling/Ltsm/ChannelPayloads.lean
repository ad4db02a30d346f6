import Ltsm.ChannelFrames
import Ltsm.FuseClient
import Ltsm.AudioCommands
import Ltsm.PcscReplies
import Ltsm.Pkcs11Replies
import Ltsm.SystemMessages

/-! What the connectors of the client answer, and the messages of the system channel, in the
frames of their channels. -/
namespace Ltsm.ChannelPayloads
open Library ChannelFrames AudioCommands SystemMessages

namespace AudioEncoding

def PCM : Nat := 0
def OPUS : Nat := 1

end AudioEncoding

/- The audio of the client: what it would like best, and what can be made for a format. -/
structure Playback where
  prefersOpus : Bool
  opusDecoder : AudioFormat → Bool
  player : AudioFormat → Bool

/- The formats are kept last one first. -/
def findFormat (formats : List AudioFormat) (encoding : Nat) : Option AudioFormat :=
  formats.reverse.find? (·.type.toNat = encoding)

/- The format that there is, or else opus where it is liked and its decoder can be made, or else PCM. -/
def selectFormat (audio : Playback) (formats : List AudioFormat) (format : Option AudioFormat) : Option AudioFormat :=
  format <|> (if audio.prefersOpus then (findFormat formats AudioEncoding.OPUS).filter audio.opusDecoder else none) <|>
    findFormat formats AudioEncoding.PCM

def audioError (error : String) : Bytes :=
  littleEndian 2 AudioOp.Init ++ littleEndian 2 (chars error).length ++ chars error

/- What the connector for audio answers, which is nothing to the other commands. -/
def audioReply (audio : Playback) (format : Option AudioFormat) : AudioCommands.Command → Option Bytes
  | .init formats =>
    match selectFormat audio formats format with
    | none => some (audioError "PCM format not found")
    | some format =>
      if audio.player format then some (littleEndian 2 AudioOp.Init ++ littleEndian 2 0 ++
        littleEndian 2 AudioOp.ProtoVer ++ littleEndian 2 format.type.toNat)
      else some (audioError "openal failed")
  | _ => none

/- A request that a connector serves, with what it finds then, or a message of the system channel. -/
inductive Served
  | fuse (owner : FuseClient.Owner) (kernel : FuseClient.Kernel) (s : FuseClient.State) (req : FuseClient.Request)
  | audio (audio : Playback) (format : Option AudioFormat) (cmd : AudioCommands.Command)
  | pcsc (system : PcscReplies.CardSystem) (cmd : PcscCommands.Command)
  | pkcs11 (library : Pkcs11Replies.TokenLibrary) (cmd : Pkcs11Commands.Command)
  | system (files : Files) (resolvHostname : String → String) (msg : SystemMessage)

/- What is handed to sendLtsmChannelData, if anything is. -/
def payload : Served → Option Bytes
  | .fuse owner kernel s req => (FuseClient.serve owner kernel s req).map (·.reply)
  | .audio audio format cmd => audioReply audio format cmd
  | .pcsc system cmd => some (PcscReplies.reply system cmd)
  | .pkcs11 library cmd => Pkcs11Replies.reply library cmd
  | .system files resolvHostname msg => message files resolvHostname msg

/- A share goes into a frame with all that is found below it. -/
def ShareFits (info : FuseClient.ShareInfo) : Prop :=
  24 + ((info.inodes.map fun st => 94 + st.1.length).sum + 16 * info.symlinks.length) ≤ 65535

def Fits : Served → Prop
  | .fuse owner _ _ (.init mountPoint) => mountPoint ∈ owner.shareFolders → ShareFits (owner.shareRootInfo mountPoint)
  | .fuse .. => True
  | .audio .. => True
  | .pcsc system cmd => PcscReplies.Fits system cmd
  | .pkcs11 library cmd => Pkcs11Replies.Fits library cmd
  | .system files resolvHostname msg => SystemMessages.Fits files resolvHostname msg

theorem statLength (st : FuseClient.Stat) : (FuseClient.replyWriteStatStruct st).length = 92 := by
  simp [FuseClient.replyWriteStatStruct]

theorem inodeLength (st : Bytes × FuseClient.Stat) :
    (littleEndian 2 (min 0xFFFF st.1.length) ++ st.1 ++ FuseClient.replyWriteStatStruct st.2).length = 94 + st.1.length := by
  simp only [List.length_append,lengthLittleEndian,statLength]
  omega

theorem linkLength (st : UInt64 × UInt64) : (littleEndian 8 st.1.toNat ++ littleEndian 8 st.2.toNat).length = 16 := by
  simp only [List.length_append,lengthLittleEndian]

theorem shareLength (info : FuseClient.ShareInfo) :
    (FuseClient.replyWriteShareRootInfo info).length =
      8 + ((info.inodes.map fun st => 94 + st.1.length).sum + 16 * info.symlinks.length) := by
  rw [FuseClient.replyWriteShareRootInfo,List.length_append,List.length_append,List.length_append,lengthLittleEndian,
    lengthLittleEndian,List.length_flatMap,List.length_flatMap]
  simp only [inodeLength,linkLength,List.map_const',List.sum_replicate_nat]
  omega

theorem headLength (code : Nat) (rid : UInt64) (error : UInt32) : (FuseClient.replyHead code rid error).length = 14 := by
  simp [FuseClient.replyHead]

theorem fuseOpenLength (kernel : FuseClient.Kernel) (s : FuseClient.State) (rid : UInt64) (flags : UInt32) (path : Bytes) :
    (FuseClient.fuseOpOpen kernel s rid flags path).reply.length ≤ 18 := by
  rw [FuseClient.fuseOpOpen]
  cases kernel.openFile (FuseClient.cString (s.shareRoot ++ path)) flags <;> simp [headLength]

theorem fuseReleaseLength (kernel : FuseClient.Kernel) (s : FuseClient.State) (rid : UInt64) (fdh : UInt32) :
    (FuseClient.fuseOpRelease kernel s rid fdh).reply.length ≤ 14 := by
  rw [FuseClient.fuseOpRelease]
  cases kernel.closeFile (FuseClient.fdOf fdh) <;> simp [headLength]

/- No more than a block is read. -/
theorem fuseReadLength (kernel : FuseClient.Kernel) (s : FuseClient.State) (rid : UInt64) (fdh : UInt32)
    (blocksz : UInt16) (offset : UInt64) :
    (FuseClient.fuseOpRead kernel s rid fdh blocksz offset).reply.length ≤ 16 + 49152 := by
  rw [FuseClient.fuseOpRead]
  cases kernel.lseek (FuseClient.fdOf fdh) offset with
  | error err => simp [headLength]
  | ok position =>
    dsimp only
    split
    · simp [headLength]
    · cases kernel.readFile (FuseClient.fdOf fdh) position (min blocksz.toNat FuseClient.blockmax) with
      | error err => simp [headLength]
      | ok data =>
        simp only [List.length_append,headLength,lengthLittleEndian,List.length_take,FuseClient.blockmax]
        omega

theorem fuseInitLength (owner : FuseClient.Owner) (kernel : FuseClient.Kernel) (s : FuseClient.State) (mountPoint : Bytes) :
    (FuseClient.fuseOpInit owner kernel s mountPoint).reply.length ≤ 65535 ↔
      (mountPoint ∈ owner.shareFolders → ShareFits (owner.shareRootInfo mountPoint)) := by
  by_cases shared : mountPoint ∈ owner.shareFolders
  · simp only [FuseClient.fuseOpInit,shared,if_true,List.length_append,lengthLittleEndian,shareLength,forall_const,ShareFits]
    omega
  · simp [FuseClient.fuseOpInit,shared]

/- A request for a channel that is set up, and its reply. -/
theorem bounded {done : FuseClient.Done} (small : done.reply.length ≤ 65535) (fuseInit : Bool) :
    ∀ buf ∈ (if fuseInit then some done else none).map (·.reply), buf.length ≤ 65535 := by
  cases fuseInit <;> simp [small]

theorem fuseFitsIff (owner : FuseClient.Owner) (kernel : FuseClient.Kernel) (s : FuseClient.State)
    (req : FuseClient.Request) :
    (∀ buf ∈ payload (.fuse owner kernel s req), buf.length ≤ 65535) ↔ Fits (.fuse owner kernel s req) := by
  cases req with
  | init mountPoint => simpa [payload,FuseClient.serve,Fits] using fuseInitLength owner kernel s mountPoint
  | opened rid flags path =>
    have small := fuseOpenLength kernel s rid flags path
    exact iff_of_true (bounded (by omega) s.fuseInit) trivial
  | read rid fdh blocksz offset =>
    have small := fuseReadLength kernel s rid fdh blocksz offset
    exact iff_of_true (bounded (by omega) s.fuseInit) trivial
  | release rid fdh =>
    have small := fuseReleaseLength kernel s rid fdh
    exact iff_of_true (bounded (by omega) s.fuseInit) trivial

theorem errorLength (error : String) : (audioError error).length = 4 + (chars error).length := by
  simp only [audioError,List.length_append,lengthLittleEndian]

/- Both errors are short. -/
theorem audioFits (audio : Playback) (format : Option AudioFormat) (cmd : AudioCommands.Command) :
    ∀ buf ∈ audioReply audio format cmd, buf.length ≤ 65535 := by
  have noFormat : (chars "PCM format not found").length = 20 := by decide
  have noPlayer : (chars "openal failed").length = 13 := by decide
  cases cmd with
  | init formats =>
    rw [audioReply]
    split
    · simp [errorLength,noFormat]
    · split <;> simp [errorLength,noPlayer]
  | _ => simp [audioReply]

theorem payloadFitsIff (served : Served) : (∀ buf ∈ payload served, buf.length ≤ 65535) ↔ Fits served := by
  cases served with
  | fuse owner kernel s req => exact fuseFitsIff owner kernel s req
  | audio audio format cmd => exact iff_of_true (audioFits audio format cmd) trivial
  | pcsc system cmd =>
    rw [payload,Fits,← PcscReplies.replyFitsIff]
    simp
  | pkcs11 library cmd => exact Pkcs11Replies.replyFitsIff library cmd
  | system files resolvHostname msg => exact messageFitsIff files resolvHostname msg

/- What is sent for a run of requests and messages, each on its channel. -/
def sent (run : List (UInt8 × Served)) : List (UInt8 × Bytes) :=
  run.filterMap fun one => (payload one.2).map fun buf => (one.1,buf)

theorem sentForall (run : List (UInt8 × Served)) :
    (∀ data ∈ sent run, data.2.length ≤ 65535) ↔ ∀ one ∈ run, Fits one.2 := by
  simp only [← payloadFitsIff]
  constructor
  · intro all one mem buf made
    exact all (one.1,buf) (List.mem_filterMap.mpr ⟨one,mem,by rw [made,Option.map_some]⟩)
  · intro all data mem
    obtain ⟨one,inside,made⟩ := List.mem_filterMap.mp mem
    obtain ⟨buf,there,rfl⟩ := Option.map_eq_some_iff.mp made
    exact all one inside buf there

/- The size that stands in the frame. -/
theorem fieldIff (buf : Bytes) : ofBigEndian (PixelStreams.sendIntBE16 buf.length) = buf.length ↔ buf.length ≤ 65535 := by
  rw [PixelStreams.sendIntBE16,ofBigEndianOf]
  omega

theorem payloadsInStep (served : Served) (run : List (UInt8 × Served)) :
    ((∀ buf ∈ payload served, buf.length ≤ 65535 ∧
        ofBigEndian (PixelStreams.sendIntBE16 buf.length) = buf.length) ↔ Fits served) ∧
      (InStep (sent run) ↔ ∀ one ∈ run, Fits one.2) := by
  constructor
  · simp only [fieldIff,and_self,payloadFitsIff]
  · rw [inStepIff,sentForall]

/- A system with a card that answers with as much as an extended answer can be. -/
def longAnswer : PcscReplies.CardSystem where
  establishContext _ := (1,0)
  releaseContext _ := 0
  listReaders _ := none
  connect _ _ _ _ := (1,2,0)
  reconnect _ _ _ _ := (2,0)
  disconnect _ _ := 0
  beginTransaction _ := 0
  endTransaction _ _ := 0
  transmit _ _ _ _ recvLength :=
    ⟨2,16,⟨(List.replicate 65538 0x90).take (PcscReplies.recvSize recvLength),List.length_take_le _ _⟩,0⟩
  status _ := ⟨0,2,PcscReplies.nothing _,PcscReplies.nothing _,0⟩
  getStatusChange _ _ _ := (fun _ => ⟨0,PcscReplies.nothing _⟩,0)
  control _ _ _ _ := (PcscReplies.nothing _,0)
  cancel _ := 0
  getAttrib _ _ := (PcscReplies.nothing _,0)
  setAttrib _ _ _ := 0

/- What the card is asked for: the buffer is as large as the extended answer. -/
theorem longAnswerOutOfStep :
    (¬ ∀ buf ∈ payload (.pcsc longAnswer (.transmit 1 2 16 65548 [0,0xB0,0,0,0,0,0])), buf.length ≤ 65535 ∧
        ofBigEndian (PixelStreams.sendIntBE16 buf.length) = buf.length) ∧
      ¬ InStep (sent [(1,.pcsc longAnswer (.transmit 1 2 16 65548 [0,0xB0,0,0,0,0,0]))]) := by
  have long : ¬ Fits (.pcsc longAnswer (.transmit 1 2 16 65548 [0,0xB0,0,0,0,0,0])) := by
    have room : PcscReplies.recvSize 65548 = 65548 := by decide
    have size : (longAnswer.transmit 1 2 16 [0,0xB0,0,0,0,0,0] 65548).recvBuffer.val.length = 65538 := by
      rw [longAnswer,List.length_take,List.length_replicate,room]
      decide
    rw [Fits,PcscReplies.Fits,size]
    decide
  constructor
  · simpa only [fieldIff,and_self,payloadFitsIff] using long
  · rw [inStepIff,sentForall]
    simpa using long

end Ltsm.ChannelPayloads
