import Ltsm.FuseClient

/-! The replies of a FUSE channel as the session takes them: what stands behind the head
depends on the command, and on whether the head has an error. -/
namespace Ltsm.FuseReplies
open Library FuseClient

def recvIntLE (count : Nat) : Reader Nat := do
  let bytes ← takeBytes count
  pure (ofLittleEndian bytes)

/- What the session hands to the file system for a request. -/
inductive Answer
  | failed (rid err : Nat)
  | opened (rid fh : Nat)
  | released (rid : Nat)
  | data (rid : Nat) (buf : Bytes)
  | unknown (rid : Nat)
  deriving DecidableEq, Repr

def Answer.rid : Answer → Nat
  | .failed rid _ | .opened rid _ | .released rid | .data rid _ | .unknown rid => rid

def replyOpen (rid : Nat) : Reader Answer := do
  let fh ← recvIntLE 4
  pure (.opened rid fh)

def replyRead (rid : Nat) : Reader Answer := do
  let len ← recvIntLE 2
  if len ≠ 0 then
    let buf ← takeBytes len
    pure (.data rid buf)
  else pure (.data rid [])

/- What fuseCmdRecv does once the head is read. -/
def replyBody (cmd rid err : Nat) : Reader Answer :=
  if err ≠ 0 then pure (.failed rid err)
  else if cmd = FuseOp.Open then replyOpen rid
  else if cmd = FuseOp.Release then pure (.released rid)
  else if cmd = FuseOp.Read then replyRead rid
  else pure (.unknown rid)

def fuseCmdRecv : Reader Answer := do
  let cmd ← recvIntLE 2
  let rid ← recvIntLE 8
  let err ← recvIntLE 4
  replyBody cmd rid err

theorem readsLE {count value : Nat} (fits : value < 256 ^ count) :
    Reads (recvIntLE count) (littleEndian count value) value := by
  have taken := readsMap (readsTake (littleEndian count value)) ofLittleEndian
  rw [lengthLittleEndian,ofLittleEndianOf,Nat.mod_eq_of_lt fits] at taken
  exact taken

def recvLE32 : Reader UInt32 := do
  let value ← recvIntLE 4
  pure (UInt32.ofNat value)

def recvLE64 : Reader UInt64 := do
  let value ← recvIntLE 8
  pure (UInt64.ofNat value)

theorem reads32 (v : UInt32) : Reads recvLE32 (littleEndian 4 v.toNat) v := by
  have value := readsMap (@readsLE 4 _ v.toNat_lt) UInt32.ofNat
  rwa [UInt32.ofNat_toNat] at value

theorem reads64 (v : UInt64) : Reads recvLE64 (littleEndian 8 v.toNat) v := by
  have value := readsMap (@readsLE 8 _ v.toNat_lt) UInt64.ofNat
  rwa [UInt64.ofNat_toNat] at value

theorem readsHeadIff {cmd : Nat} (fits : cmd < 256 ^ 2) (rid : UInt64) (err : UInt32) {rest : Bytes} {out : Answer} :
    Reads fuseCmdRecv (replyHead cmd rid err ++ rest) out ↔ Reads (replyBody cmd rid.toNat err.toNat) rest out := by
  rw [replyHead,List.append_assoc,List.append_assoc]
  exact (readsBindIff (readsLE fits)).trans
    ((readsBindIff (readsLE rid.toNat_lt)).trans (readsBindIff (readsLE err.toNat_lt)))

theorem readsFailed {cmd : Nat} (fits : cmd < 256 ^ 2) (rid : UInt64) {err : UInt32} (failed : err ≠ 0) :
    Reads fuseCmdRecv (replyHead cmd rid err) (.failed rid.toNat err.toNat) := by
  have set : err.toNat ≠ 0 := fun zero => failed (UInt32.toNat_inj.mp zero)
  have body : Reads (replyBody cmd rid.toNat err.toNat) [] (.failed rid.toNat err.toNat) := by
    rw [replyBody,if_pos set]
    exact readsPure _
  have head := (readsHeadIff fits rid err).mpr body
  rwa [List.append_nil] at head

theorem readsOpened (rid : UInt64) (fd : Descriptor) :
    Reads fuseCmdRecv (replyHead FuseOp.Open rid 0 ++ littleEndian 4 fd.val) (.opened rid.toNat fd.val) := by
  have small := fd.isLt
  have fits : FuseOp.Open < 256 ^ 2 := by decide
  refine (readsHeadIff fits rid 0).mpr ?_
  exact readsMap (readsLE (by omega)) (Answer.opened rid.toNat)

theorem readsReleased (rid : UInt64) : Reads fuseCmdRecv (replyHead FuseOp.Release rid 0) (.released rid.toNat) := by
  have fits : FuseOp.Release < 256 ^ 2 := by decide
  have head := (readsHeadIff fits rid 0).mpr (readsPure (Answer.released rid.toNat))
  rwa [List.append_nil] at head

theorem readsData (rid : UInt64) {buf : Bytes} (fits : buf.length < 256 ^ 2) :
    Reads fuseCmdRecv (replyHead FuseOp.Read rid 0 ++ (littleEndian 2 buf.length ++ buf)) (.data rid.toNat buf) := by
  refine (readsHeadIff (by decide) rid 0).mpr ?_
  refine readsBind (readsLE fits) ?_
  cases buf with
  | nil => exact readsPure _
  | cons byte rest => exact readsMap (readsTake (byte :: rest)) (Answer.data rid.toNat)

/- A head without an error promises the length of the data. -/
theorem notReadsHead (rid : UInt64) (out : Answer) : ¬ Reads fuseCmdRecv (replyHead FuseOp.Read rid 0) out := by
  intro all
  rw [← List.append_nil (replyHead FuseOp.Read rid 0),readsHeadIff (by decide)] at all
  have ran := all []
  cases ran

def requestId : Request → Option UInt64
  | .init _ => none
  | .opened rid _ _ | .read rid _ _ _ | .release rid _ => some rid

/- The descriptor is that of a regular file with this content. -/
structure Holds (kernel : Kernel) (fd : Int) (content : Bytes) : Prop where
  fits : content.length ≤ 2 ^ 63
  seeks : ∀ (offset : UInt64) (small : offset.toNat < 2 ^ 63), kernel.lseek fd offset = .ok ⟨offset.toNat,small⟩
  reads : ∀ (position : Position) (n : Nat), kernel.readFile fd position n = .ok ((content.drop position).take n)

/- The session takes the whole reply, hands it to the request it is for, and for a place
inside a file that is the file's bytes from there on. -/
def ReplyAgrees (owner : Owner) (kernel : Kernel) (s : State) (req : Request) : Prop :=
  ∀ done rid, serve owner kernel s req = some done → requestId req = some rid →
    ∃ out, Reads fuseCmdRecv done.reply out ∧ out.rid = rid.toNat ∧
      ∀ fdh blocksz offset content, req = .read rid fdh blocksz offset → Holds kernel (fdOf fdh) content →
        offset.toNat < content.length →
          out = .data rid.toNat ((content.drop offset.toNat).take (min blocksz.toNat blockmax))

/- The position does not fit in the int, and either no earlier call has left an errno or
the place is inside a file. -/
def Truncated (kernel : Kernel) : Request → Prop
  | .read _ fdh _ offset => ∃ position, kernel.lseek (fdOf fdh) offset = .ok position ∧ intOf position < 0 ∧
      (kernel.errno = 0 ∨ ∃ content, Holds kernel (fdOf fdh) content ∧ offset.toNat < content.length)
  | _ => False

theorem truncatedIff {kernel : Kernel} {rid : UInt64} {fdh : UInt32} {blocksz : UInt16} {offset : UInt64}
    {position : Position} (seek : kernel.lseek (fdOf fdh) offset = .ok position) :
    Truncated kernel (.read rid fdh blocksz offset) ↔ intOf position < 0 ∧
      (kernel.errno = 0 ∨ ∃ content, Holds kernel (fdOf fdh) content ∧ offset.toNat < content.length) := by
  constructor
  · rintro ⟨p,same,rest⟩
    rw [seek] at same
    cases same
    exact rest
  · exact fun rest => ⟨position,seek,rest⟩

theorem readAgreesIff (kernel : Kernel) (s : State) (rid : UInt64) (fdh : UInt32) (blocksz : UInt16) (offset : UInt64) :
    (∃ out, Reads fuseCmdRecv (fuseOpRead kernel s rid fdh blocksz offset).reply out ∧ out.rid = rid.toNat ∧
      ∀ content, Holds kernel (fdOf fdh) content → offset.toNat < content.length →
        out = .data rid.toNat ((content.drop offset.toNat).take (min blocksz.toNat blockmax))) ↔
      ¬ Truncated kernel (.read rid fdh blocksz offset) := by
  have code : FuseOp.Read < 256 ^ 2 := by decide
  unfold fuseOpRead
  cases seek : kernel.lseek (fdOf fdh) offset with
  | error err =>
    have fine : ¬ Truncated kernel (.read rid fdh blocksz offset) := by
      rintro ⟨_,same,_⟩
      rw [seek] at same
      cases same
    refine iff_of_true ⟨_,readsFailed code rid err.failed,rfl,fun content file inside => ?_⟩ fine
    have sought := file.seeks offset (Nat.lt_of_lt_of_le inside file.fits)
    rw [seek] at sought
    cases sought
  | ok position =>
    rw [truncatedIff seek]
    by_cases negative : intOf position < 0
    · rw [and_iff_right negative]
      simp only [if_pos negative]
      by_cases clear : kernel.errno = 0
      · rw [clear]
        exact iff_of_false (fun ⟨out,reads,_⟩ => notReadsHead rid out reads) (by simp)
      · have failed := readsFailed code rid clear
        rw [or_iff_right clear]
        constructor
        · rintro ⟨out,reads,_,bytes⟩ ⟨content,file,inside⟩
          rw [bytes content file inside] at reads
          cases readsUnique failed reads
        · intro outside
          exact ⟨_,failed,rfl,fun content file inside => absurd ⟨content,file,inside⟩ outside⟩
    · simp only [if_neg negative]
      refine iff_of_true ?_ fun below => negative below.1
      cases got : kernel.readFile (fdOf fdh) position (min blocksz.toNat blockmax) with
      | error err =>
        refine ⟨_,readsFailed code rid err.failed,rfl,fun content file inside => ?_⟩
        have read := file.reads position (min blocksz.toNat blockmax)
        rw [got] at read
        cases read
      | ok data =>
        have size : (data.take (min blocksz.toNat blockmax)).length < 256 ^ 2 := by
          have low := blocksz.toNat_lt
          rw [List.length_take]
          omega
        refine ⟨.data rid.toNat (data.take (min blocksz.toNat blockmax)),?_,rfl,fun content file inside => ?_⟩
        · simpa only [List.append_assoc] using readsData rid size
        · have sought := file.seeks offset (Nat.lt_of_lt_of_le inside file.fits)
          rw [seek] at sought
          cases sought
          have read := file.reads ⟨offset.toNat,Nat.lt_of_lt_of_le inside file.fits⟩ (min blocksz.toNat blockmax)
          rw [got] at read
          cases read
          rw [List.take_take,Nat.min_self]

theorem readRequestIff (owner : Owner) (kernel : Kernel) (s : State) (rid : UInt64) (fdh : UInt32) (blocksz : UInt16)
    (offset : UInt64) : ReplyAgrees owner kernel s (.read rid fdh blocksz offset) ↔
      (s.fuseInit = true → ¬ Truncated kernel (.read rid fdh blocksz offset)) := by
  unfold ReplyAgrees
  by_cases ready : s.fuseInit = true
  · rw [← readAgreesIff kernel s]
    simp only [serve,if_pos ready,requestId,Option.some.injEq,Request.read.injEq]
    constructor
    · intro agrees _
      obtain ⟨out,reads,same,bytes⟩ := agrees _ rid rfl rfl
      exact ⟨out,reads,same,fun content => bytes fdh blocksz offset content ⟨rfl,rfl,rfl,rfl⟩⟩
    · rintro agrees done rid' rfl rfl
      obtain ⟨out,reads,same,bytes⟩ := agrees ready
      refine ⟨out,reads,same,?_⟩
      rintro fdh' blocksz' offset' content ⟨_,rfl,rfl,rfl⟩
      exact bytes content
  · simp [serve,ready]

theorem replyAgreesIff (owner : Owner) (kernel : Kernel) (s : State) (req : Request) :
    ReplyAgrees owner kernel s req ↔ (s.fuseInit = true → ¬ Truncated kernel req) := by
  cases req with
  | init mountPoint =>
    exact iff_of_true (fun done rid _ id => by cases id) (by simp [Truncated])
  | opened rid flags path =>
    refine iff_of_true (fun done rid' served id => ?_) (by simp [Truncated])
    cases id
    rw [serve] at served
    split at served
    · cases Option.some.inj served
      rw [fuseOpOpen]
      cases kernel.openFile (cString (s.shareRoot ++ path)) flags with
      | error err => exact ⟨_,readsFailed (by decide) rid err.failed,rfl,by simp⟩
      | ok fd => exact ⟨_,readsOpened rid fd,rfl,by simp⟩
    · cases served
  | release rid fdh =>
    refine iff_of_true (fun done rid' served id => ?_) (by simp [Truncated])
    cases id
    rw [serve] at served
    split at served
    · cases Option.some.inj served
      rw [fuseOpRelease]
      cases kernel.closeFile (fdOf fdh) with
      | error err => exact ⟨_,readsFailed (by decide) rid err.failed,rfl,by simp⟩
      | ok _ => exact ⟨_,readsReleased rid,rfl,by simp⟩
    · cases served
  | read rid fdh blocksz offset => exact readRequestIff owner kernel s rid fdh blocksz offset

def seekSet (offset : UInt64) : Except Errno Position :=
  if small : offset.toNat < 2 ^ 63 then .ok ⟨offset.toNat,small⟩ else .error ⟨22,by decide⟩

/- A system where descriptor 3 is a file, and nothing else is open. -/
def oneFile (content : Bytes) : Kernel where
  errno := 0
  getuid := 1000
  getgid := 1000
  openFile _ _ := .error ⟨2,by decide⟩
  closeFile fd := if fd = 3 then .ok () else .error ⟨9,by decide⟩
  lseek fd offset := if fd = 3 then seekSet offset else .error ⟨9,by decide⟩
  readFile fd position n := if fd = 3 then .ok ((content.drop position).take n) else .error ⟨9,by decide⟩

theorem oneFileHolds {content : Bytes} (fits : content.length ≤ 2 ^ 63) : Holds (oneFile content) 3 content where
  fits := fits
  seeks offset small := by
    simp only [oneFile,if_true]
    exact dif_pos small
  reads position n := by simp [oneFile]

/- The middle of a file of four gigabytes. -/
theorem middleNotRead : ¬ ReplyAgrees ⟨[],fun _ => ⟨[],[]⟩⟩ (oneFile (List.replicate 4294967296 0)) {fuseInit := true}
    (.read 1 3 4096 2147483648) := by
  rw [readRequestIff]
  intro agrees
  have file := @oneFileHolds (List.replicate 4294967296 0) (by rw [List.length_replicate]; decide)
  refine agrees rfl ⟨⟨2147483648,by decide⟩,?_,by decide,.inl rfl⟩
  exact file.seeks 2147483648 (by decide)

end Ltsm.FuseReplies
