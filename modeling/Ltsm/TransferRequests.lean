import Ltsm.Library.Run
import Ltsm.Library.FirstMatch
import Mathlib.Data.List.Perm.Basic
import Mathlib.Data.UInt

/-! The files a client asks to bring into a session. The connector plans them and asks the service,
the service asks the user and answers with a signal for each file. Texts of the log and of the
notices are left out, and so are the signals of other displays. -/
namespace Ltsm.TransferRequests
open Library

structure FileSize where
  name : String
  size : UInt32
  deriving DecidableEq, Repr

/- What becomes of a program in the session: an exit, no start of it, no bus. -/
inductive Dialog
  | exited (code : UInt8) (stdout : String)
  | failed
  | unreachable
  deriving DecidableEq, Repr

structure StatusStdout where
  status : Int
  stdout : String
  deriving DecidableEq, Repr

/- With runSessionCommandSync on the other side of the bus. -/
def dbusRunSessionZenity : Dialog → StatusStdout
  | .exited code stdout => ⟨code.toNat,stdout⟩
  | .failed => ⟨-1,""⟩
  | .unreachable => ⟨0,""⟩

/- The program ended and was told yes, or ok. -/
def Dialog.agreed : Dialog → Bool
  | .exited code _ => code = 0
  | _ => false

/- A line end is cut off. Of an empty buffer the last byte is read all the same. -/
def selectedDir (buf : String) : Option String :=
  match buf.toList.getLast? with
  | none => none
  | some back => some (if back = '\n' then String.ofList buf.toList.dropLast else buf)

/- The signal. -/
structure TransferAllow where
  filepath : String
  tmpfile : String
  dstdir : String
  deriving DecidableEq, Repr

def TransferAllow.accepts (a : TransferAllow) : Bool := a.dstdir ≠ "" && a.tmpfile ≠ ""

/- What is found for one file. The space is unknown where it can not be read. -/
structure FileCheck where
  available : Option UInt64
  present : Bool
  random : String

structure Outcome where
  question : Dialog
  selectDir : Dialog
  directory : String → Bool
  connectorHome : String
  checks : Nat → FileCheck

/- The empty path is none. -/
def Outcome.isDirectory (o : Outcome) (dstdir : String) : Bool := dstdir ≠ "" && o.directory dstdir

def FileCheck.spaceLimited (check : FileCheck) (info : FileSize) : Bool :=
  check.available.any fun available => available < info.size.toUInt64

def joined (dir name : String) : String :=
  if dir = "" ∨ dir.toList.getLast? = some '/' then dir ++ name else dir ++ "/" ++ name

/- Nothing is returned where it throws. -/
def transferFileCopyAllow (dstdir tmpname : String) (check : FileCheck) (info : FileSize) :
    Option (List TransferAllow) :=
  if check.spaceLimited info then none
  else if check.present then some []
  else some [⟨info.name,tmpname,dstdir⟩]

def tmpName (o : Outcome) (index : Nat) : String :=
  joined o.connectorHome "transfer_" ++ (o.checks index).random

def copyFiles (o : Outcome) (dstdir : String) : Nat → List FileSize → List TransferAllow
  | _, [] => []
  | index, info :: rest =>
    match transferFileCopyAllow dstdir (tmpName o index) (o.checks index) info with
    | none => []
    | some emitted => emitted ++ copyFiles o dstdir (index + 1) rest

def emitTransferReject (files : List FileSize) : List TransferAllow :=
  files.map fun info => ⟨info.name,"",""⟩

/- The signals, or nothing where the service breaks. -/
def transferFilesRequestCommunication (o : Outcome) (files : List FileSize) : Option (List TransferAllow) :=
  if (dbusRunSessionZenity o.question).status = 256 then some (emitTransferReject files)
  else if (dbusRunSessionZenity o.selectDir).status = 256 then some (emitTransferReject files)
  else
    match selectedDir (dbusRunSessionZenity o.selectDir).stdout with
    | none => none
    | some dstdir =>
      if o.isDirectory dstdir then some (copyFiles o dstdir 0 files) else some (emitTransferReject files)

/- What the service looks up before it takes a request. -/
structure Admission where
  displayFound : Bool
  transferFiles : Bool
  groupOnly : Option Nat
  groups : List Nat

def busTransferFilesRequest (a : Admission) : Bool :=
  a.displayFound && a.transferFiles && a.groupOnly.all fun gid => a.groups.any fun g => g = gid

/-! The connector. -/

/- A thread that asks part by part; it counts the channels when it starts. -/
structure Partial where
  files : List FileSize
  chunk : Option Nat
  deriving DecidableEq, Repr

/- A signal with what the user was asked for it. -/
structure Verdict where
  answer : TransferAllow
  outcome : Outcome

structure Transfers where
  transferPlanned : List FileSize
  partials : List Partial
  requests : List (List FileSize)
  signals : List TransferAllow
  verdicts : List Verdict
  broken : Bool

def start : Transfers := ⟨[],[],[],[],[],false⟩

/- The message of the client, where it has files; an entry that is no object is skipped. A number
of the message is an int and becomes a size of 64 bits. -/
structure TransferFiles where
  userSession : Bool
  files : Option (List (Option (String × Int)))
  disabled : Bool
  fileMax : Int
  freeChannels : Nat
  reply : Option Admission

def planFiles (fmax : UInt64) (planned : List FileSize) : List (Option (String × Int)) → List FileSize
  | [] => planned
  | none :: rest => planFiles fmax planned rest
  | some (fname,fsize) :: rest =>
    if planned.any fun st => fname = st.name then planFiles fmax planned rest
    else if fmax ≠ 0 ∧ fmax < UInt64.ofInt fsize then planFiles fmax planned rest
    else planFiles fmax (planned ++ [⟨fname,(UInt64.ofInt fsize).toUInt32⟩]) rest

/- The service gets the files if the call comes through and is admitted. -/
def Transfers.request (reply : Option Admission) (files : List FileSize) (s : Transfers) : Transfers :=
  if reply.any busTransferFilesRequest then {s with requests := s.requests ++ [files]} else s

def systemTransferFiles (m : TransferFiles) (s : Transfers) : Transfers :=
  match m.files with
  | none => s
  | some fa =>
    if m.userSession && ! m.disabled then
      let planned := planFiles (UInt64.ofInt m.fileMax) s.transferPlanned fa
      let t := {s with transferPlanned := planned}
      if planned = [] then t
      else if m.freeChannels = 0 then t
      else if planned.length ≤ m.freeChannels then t.request m.reply planned
      else {t with partials := t.partials ++ [⟨planned,none⟩]}
    else s

def partialStart (index freeChannels : Nat) (s : Transfers) : Transfers :=
  match s.partials[index]? with
  | some ⟨files,none⟩ => {s with partials := s.partials.set index ⟨files,some (freeChannels / 3)⟩}
  | _ => s

/- One turn of transferFilesPartial. The loop is left when the call throws. -/
def partialTurn (index freeChannels : Nat) (reply : Option Admission) (s : Transfers) : Transfers :=
  match s.partials[index]? with
  | some ⟨files,some chunk⟩ =>
    if files = [] then {s with partials := s.partials.eraseIdx index}
    else if freeChannels < chunk then s
    else if reply.isNone then {s with partials := s.partials.eraseIdx index}
    else {s with partials := s.partials.set index ⟨files.drop chunk,some chunk⟩}.request reply (files.take chunk)
  | _ => s

def serveRequest (index : Nat) (o : Outcome) (s : Transfers) : Transfers :=
  match s.requests[index]? with
  | none => s
  | some files =>
    match transferFilesRequestCommunication o files with
    | none => {s with broken := true}
    | some emitted =>
      {s with
        requests := s.requests.eraseIdx index
        signals := s.signals ++ emitted
        verdicts := s.verdicts ++ emitted.map fun answer => ⟨answer,o⟩}

/- The planned files behind a signal for this display. Where the service can not be told that the
transfer has started, the call throws before the file is taken out. -/
def transferAllowed (a : TransferAllow) (told : Bool) (planned : List FileSize) : List FileSize :=
  match planned.find? fun st => a.filepath = st.name with
  | none => planned
  | some _ =>
    if a.accepts && ! told then planned else planned.eraseP fun st => a.filepath = st.name

def onTransferAllow (told : Bool) (s : Transfers) : Transfers :=
  match s.signals with
  | [] => s
  | a :: rest => {s with signals := rest,transferPlanned := transferAllowed a told s.transferPlanned}

inductive Action
  | systemTransferFiles (m : TransferFiles)
  | partialStart (index freeChannels : Nat)
  | partialTurn (index freeChannels : Nat) (reply : Option Admission)
  | serveRequest (index : Nat) (o : Outcome)
  | onTransferAllow (told : Bool)

def step (s : Transfers) (a : Action) : Transfers :=
  if s.broken then s
  else
    match a with
    | .systemTransferFiles m => systemTransferFiles m s
    | .partialStart index freeChannels => partialStart index freeChannels s
    | .partialTurn index freeChannels reply => partialTurn index freeChannels reply s
    | .serveRequest index o => serveRequest index o s
    | .onTransferAllow told => onTransferAllow told s

/- Files that are to be asked for, asked for or answered, by name. -/
def Transfers.waiting (s : Transfers) : List String :=
  (s.partials.flatMap fun t => t.files.map FileSize.name) ++
    ((s.requests.flatMap fun files => files.map FileSize.name) ++ s.signals.map TransferAllow.filepath)

def Verdict.Agreed (v : Verdict) : Prop :=
  v.outcome.question.agreed = true ∧ v.outcome.selectDir.agreed = true ∧
    selectedDir (dbusRunSessionZenity v.outcome.selectDir).stdout = some v.answer.dstdir ∧
    v.outcome.isDirectory v.answer.dstdir = true

/- Each planned file has one request or answer on its way and no other file has, none is held by a
thread that asks for nothing, and none was allowed without a yes and a directory. -/
structure Answered (s : Transfers) : Prop where
  once : (s.transferPlanned.map FileSize.name).Perm s.waiting
  asked : ∀ v ∈ s.verdicts, v.answer.accepts = true → v.Agreed
  moving : ∀ t ∈ s.partials, t.files ≠ [] → t.chunk ≠ some 0
  running : s.broken = false

/- Where a directory was chosen, behind a yes, and no file has to be left out. -/
def Settled (o : Outcome) (files : List FileSize) : Prop :=
  ∃ dstdir, selectedDir (dbusRunSessionZenity o.selectDir).stdout = some dstdir ∧
    (o.isDirectory dstdir = true →
      (∀ index info, files[index]? = some info →
        (o.checks index).spaceLimited info = false ∧ (o.checks index).present = false) ∧
      (files ≠ [] → o.question.agreed = true ∧ o.selectDir.agreed = true))

/- What is planned next, and where the request goes. -/
def PlansWell (m : TransferFiles) (s : Transfers) : Prop :=
  ∀ fa, m.files = some fa → (m.userSession && ! m.disabled) = true →
    let planned := planFiles (UInt64.ofInt m.fileMax) s.transferPlanned fa
    if m.freeChannels = 0 then planned = s.transferPlanned
    else if planned.length ≤ m.freeChannels then
      if m.reply.any busTransferFilesRequest then s.transferPlanned = [] else planned = s.transferPlanned
    else s.transferPlanned = []

def Careful (s : Transfers) : Action → Prop
  | .systemTransferFiles m => PlansWell m s
  | .partialStart index freeChannels =>
    ∀ files, s.partials[index]? = some ⟨files,none⟩ → files ≠ [] → 3 ≤ freeChannels
  | .partialTurn index freeChannels reply =>
    ∀ files chunk, s.partials[index]? = some ⟨files,some chunk⟩ → files ≠ [] → chunk ≤ freeChannels →
      reply.any busTransferFilesRequest = true
  | .serveRequest index o => ∀ files, s.requests[index]? = some files → Settled o files
  | .onTransferAllow told => ∀ a, s.signals.head? = some a → a.accepts = true → told = true

section
variable {o : Outcome} {dstdir : String} {files : List FileSize} {info : FileSize} {s : Transfers}

/-! The answers of a request. -/

/- The file is not left out by what is found for it. -/
def Clear (o : Outcome) (index : Nat) (info : FileSize) : Prop :=
  (o.checks index).spaceLimited info = false ∧ (o.checks index).present = false

theorem copyStep (o : Outcome) (dstdir : String) (index : Nat) (info : FileSize) (rest : List FileSize) :
    (Clear o index info ∧ copyFiles o dstdir index (info :: rest) =
        ⟨info.name,tmpName o index,dstdir⟩ :: copyFiles o dstdir (index + 1) rest) ∨
      (¬ Clear o index info ∧ (copyFiles o dstdir index (info :: rest) = [] ∨
        copyFiles o dstdir index (info :: rest) = copyFiles o dstdir (index + 1) rest)) := by
  rw [copyFiles]
  unfold transferFileCopyAllow Clear
  cases (o.checks index).spaceLimited info with
  | true => exact .inr ⟨by simp,.inl rfl⟩
  | false =>
    cases (o.checks index).present with
    | true => exact .inr ⟨by simp,.inr rfl⟩
    | false => exact .inl ⟨⟨rfl,rfl⟩,rfl⟩

theorem copyNames (files : List FileSize) (index : Nat) :
    ((copyFiles o dstdir index files).map TransferAllow.filepath).Sublist (files.map FileSize.name) := by
  induction files generalizing index with
  | nil => exact .slnil
  | cons info rest ih =>
    rcases copyStep o dstdir index info rest with ⟨_,one⟩ | ⟨_,none | more⟩
    · rw [one]
      exact (ih (index + 1)).cons_cons _
    · rw [none]
      exact List.nil_sublist _
    · rw [more]
      exact (ih (index + 1)).cons _

theorem copyAll (files : List FileSize) (index : Nat) :
    (copyFiles o dstdir index files).length = files.length ↔
      ∀ i info, files[i]? = some info → Clear o (index + i) info := by
  induction files generalizing index with
  | nil => simp [copyFiles]
  | cons info rest ih =>
    have split : (∀ i other, (info :: rest)[i]? = some other → Clear o (index + i) other) ↔
        Clear o index info ∧ ∀ i other, rest[i]? = some other → Clear o (index + 1 + i) other := by
      constructor
      · intro all
        refine ⟨all 0 info rfl,fun i other there => ?_⟩
        rw [Nat.add_assoc,Nat.add_comm 1 i]
        exact all (i + 1) other there
      · rintro ⟨here,more⟩ i other there
        cases i with
        | zero =>
          cases Option.some.inj there
          exact here
        | succ i =>
          rw [Nat.add_comm i 1,← Nat.add_assoc]
          exact more i other there
    rw [split,← ih]
    rcases copyStep o dstdir index info rest with ⟨clear,one⟩ | ⟨unclear,none | more⟩
    · rw [one]
      simp [clear]
    · simp [none,unclear]
    · have shorter := (@copyNames o dstdir rest (index + 1)).length_le
      simp only [List.length_map] at shorter
      simp only [more,unclear,false_and,iff_false,List.length_cons]
      omega

theorem copyTo (files : List FileSize) (index : Nat) :
    ∀ a ∈ copyFiles o dstdir index files, a.dstdir = dstdir ∧ ∃ i, a.tmpfile = tmpName o i := by
  induction files generalizing index with
  | nil => simp [copyFiles]
  | cons info rest ih =>
    intro a inside
    rcases copyStep o dstdir index info rest with ⟨_,one⟩ | ⟨_,none | more⟩
    · rw [one] at inside
      rcases List.mem_cons.mp inside with rfl | later
      · exact ⟨rfl,index,rfl⟩
      · exact ih (index + 1) a later
    · simp [none] at inside
    · exact ih (index + 1) a (more ▸ inside)

theorem tmpNamed (o : Outcome) (index : Nat) : tmpName o index ≠ "" := by
  intro empty
  have chars := congrArg String.toList empty
  rw [tmpName,joined] at chars
  split at chars <;> simp at chars

/- What an exit code holds is under what both tests look for. -/
theorem neverRefused (d : Dialog) : (dbusRunSessionZenity d).status ≠ 256 := by
  cases d with
  | exited code stdout =>
    have small := code.toNat_lt
    simp only [dbusRunSessionZenity]
    omega
  | failed => simp [dbusRunSessionZenity]
  | unreachable => simp [dbusRunSessionZenity]

theorem communicates (o : Outcome) (files : List FileSize) : transferFilesRequestCommunication o files =
    (selectedDir (dbusRunSessionZenity o.selectDir).stdout).map fun dstdir =>
      if o.isDirectory dstdir then copyFiles o dstdir 0 files else emitTransferReject files := by
  rw [transferFilesRequestCommunication,if_neg (neverRefused _),if_neg (neverRefused _)]
  cases selectedDir (dbusRunSessionZenity o.selectDir).stdout with
  | none => rfl
  | some dstdir =>
    dsimp only [Option.map_some]
    split <;> rfl

theorem rejectNames (files : List FileSize) :
    (emitTransferReject files).map TransferAllow.filepath = files.map FileSize.name := by
  simp [emitTransferReject]

theorem rejectsAll (files : List FileSize) : ∀ a ∈ emitTransferReject files, a.accepts = false := by
  intro a inside
  obtain ⟨info,_,rfl⟩ := List.mem_map.mp inside
  rfl

/- Each file has one answer, and those that are allowed were agreed to. -/
def Faithful (o : Outcome) (files : List FileSize) (emitted : List TransferAllow) : Prop :=
  (emitted.map TransferAllow.filepath).Perm (files.map FileSize.name) ∧
    ∀ a ∈ emitted, a.accepts = true → (⟨a,o⟩ : Verdict).Agreed

theorem copyFaithful (chosen : selectedDir (dbusRunSessionZenity o.selectDir).stdout = some dstdir)
    (directory : o.isDirectory dstdir = true) : Faithful o files (copyFiles o dstdir 0 files) ↔
      (∀ index info, files[index]? = some info → Clear o index info) ∧
        (files ≠ [] → o.question.agreed = true ∧ o.selectDir.agreed = true) := by
  have named : dstdir ≠ "" := by
    intro empty
    simp [Outcome.isDirectory,empty] at directory
  have accepts : ∀ a ∈ copyFiles o dstdir 0 files, a.accepts = true := by
    intro a inside
    obtain ⟨dir,i,tmp⟩ := copyTo files 0 a inside
    simp [TransferAllow.accepts,dir,named,tmp,tmpNamed]
  have all := @copyAll o dstdir files 0
  simp only [Nat.zero_add] at all
  rw [← all]
  constructor
  · rintro ⟨names,agreed⟩
    have lengths := names.length_eq
    simp only [List.length_map] at lengths
    refine ⟨lengths,fun any => ?_⟩
    obtain ⟨a,inside⟩ := List.exists_mem_of_ne_nil _ (fun none : copyFiles o dstdir 0 files = [] =>
      any (List.length_eq_zero_iff.mp (lengths.symm.trans (List.length_eq_zero_iff.mpr none))))
    have both := agreed a inside (accepts a inside)
    exact ⟨both.1,both.2.1⟩
  · rintro ⟨lengths,both⟩
    have same := (@copyNames o dstdir files 0).eq_of_length (by simpa using lengths)
    refine ⟨same ▸ .refl _,fun a inside _ => ?_⟩
    have dir := (copyTo files 0 a inside).1
    have any : files ≠ [] := by
      rintro rfl
      simp [copyFiles] at inside
    exact ⟨(both any).1,(both any).2,by rw [dir,chosen],by rw [dir,directory]⟩

theorem settledIff : (∃ emitted, transferFilesRequestCommunication o files = some emitted ∧
    Faithful o files emitted) ↔ Settled o files := by
  rw [communicates,Settled]
  cases chosen : selectedDir (dbusRunSessionZenity o.selectDir).stdout with
  | none => simp
  | some dstdir =>
    simp only [Option.map_some,Option.some.injEq,exists_eq_left']
    split
    · rename_i directory
      rw [copyFaithful chosen directory]
      exact ⟨fun both _ => both,fun both => both directory⟩
    · rename_i other
      refine iff_of_true ⟨rejectNames files ▸ .refl _,fun a inside accepts => ?_⟩ (fun directory => absurd directory other)
      rw [rejectsAll files a inside] at accepts
      contradiction

/-! What is on its way. -/

theorem requestKeeps (reply : Option Admission) (files : List FileSize) (s : Transfers) :
    (s.request reply files).transferPlanned = s.transferPlanned ∧ (s.request reply files).partials = s.partials ∧
      (s.request reply files).verdicts = s.verdicts ∧ (s.request reply files).broken = s.broken := by
  unfold Transfers.request
  split <;> exact ⟨rfl,rfl,rfl,rfl⟩

theorem requestWaiting (reply : Option Admission) (files : List FileSize) :
    (s.request reply files).waiting.Perm
      (s.waiting ++ if reply.any busTransferFilesRequest then files.map FileSize.name else []) := by
  unfold Transfers.request
  split
  · simp only [Transfers.waiting,List.flatMap_append,List.flatMap_singleton,List.append_assoc]
    exact ((List.perm_append_comm.append_left _).append_left _)
  · rw [List.append_nil]

theorem planAdds (fmax : UInt64) (fa : List (Option (String × Int))) (planned : List FileSize) :
    ∃ added, planFiles fmax planned fa = planned ++ added := by
  induction fa generalizing planned with
  | nil => exact ⟨[],(List.append_nil _).symm⟩
  | cons entry rest ih =>
    match entry with
    | none => exact ih planned
    | some (fname,fsize) =>
      rw [planFiles]
      split
      · exact ih planned
      · split
        · exact ih planned
        · obtain ⟨added,same⟩ := ih (planned ++ [⟨fname,(UInt64.ofInt fsize).toUInt32⟩])
          exact ⟨_ :: added,by rw [same,List.append_assoc,List.singleton_append]⟩

theorem requestAnswered {reply : Option Admission} (asked : ∀ v ∈ s.verdicts, v.answer.accepts = true → v.Agreed)
    (moving : ∀ t ∈ s.partials, t.files ≠ [] → t.chunk ≠ some 0) (running : s.broken = false) :
    Answered (s.request reply files) ↔ (s.transferPlanned.map FileSize.name).Perm
      (s.waiting ++ if reply.any busTransferFilesRequest then files.map FileSize.name else []) := by
  obtain ⟨planned,partials,verdicts,broken⟩ := requestKeeps reply files s
  constructor
  · intro after
    have once := after.once
    rw [planned] at once
    exact once.trans (requestWaiting reply files)
  · intro once
    exact ⟨planned ▸ once.trans (requestWaiting reply files).symm,verdicts ▸ asked,partials ▸ moving,broken ▸ running⟩

theorem partialAnswered (asked : ∀ v ∈ s.verdicts, v.answer.accepts = true → v.Agreed)
    (moving : ∀ t ∈ s.partials, t.files ≠ [] → t.chunk ≠ some 0) (running : s.broken = false) :
    Answered {s with partials := s.partials ++ [⟨files,none⟩]} ↔
      (s.transferPlanned.map FileSize.name).Perm (s.waiting ++ files.map FileSize.name) := by
  have waits : (Transfers.waiting {s with partials := s.partials ++ [⟨files,none⟩]}).Perm
      (s.waiting ++ files.map FileSize.name) := by
    simp only [Transfers.waiting,List.flatMap_append,List.flatMap_singleton,List.append_assoc]
    exact (List.perm_append_comm.trans (by rw [List.append_assoc])).append_left _
  refine ⟨fun after => after.once.trans waits,fun once => ⟨once.trans waits.symm,asked,?_,running⟩⟩
  intro t inside
  rcases List.mem_append.mp inside with old | new
  · exact moving t old
  · rw [List.mem_singleton.mp new]
    simp

/- What is planned on top of it has to be asked for, and nothing else. -/
theorem plannedOn {before added : List FileSize} {waiting : List String} (once : (before.map FileSize.name).Perm waiting) :
    (((before ++ added).map FileSize.name).Perm waiting ↔ added = []) ∧
      (((before ++ added).map FileSize.name).Perm (waiting ++ (before ++ added).map FileSize.name) ↔ before = []) := by
  have lengths := once.length_eq
  rw [List.length_map] at lengths
  refine ⟨⟨fun same => ?_,?_⟩,⟨fun same => ?_,?_⟩⟩
  · have more := same.length_eq
    rw [List.length_map,List.length_append] at more
    exact List.length_eq_zero_iff.mp (by omega)
  · rintro rfl
    rw [List.append_nil]
    exact once
  · have more := same.length_eq
    rw [List.length_append,List.length_map,List.length_append] at more
    exact List.length_eq_zero_iff.mp (by omega)
  · rintro rfl
    rw [List.length_nil] at lengths
    rw [List.length_eq_zero_iff.mp lengths.symm,List.nil_append,List.nil_append]

theorem keepsPlan (m : TransferFiles) (answered : Answered s) :
    Answered (systemTransferFiles m s) ↔ PlansWell m s := by
  unfold systemTransferFiles PlansWell
  cases m.files with
  | none => simp [answered]
  | some fa =>
    simp only [Option.some.injEq,forall_eq']
    split
    · rename_i allowed
      simp only [allowed,forall_true_left]
      obtain ⟨added,same⟩ := planAdds (UInt64.ofInt m.fileMax) fa s.transferPlanned
      obtain ⟨unasked,again⟩ := @plannedOn s.transferPlanned added s.waiting answered.once
      rw [same]
      set t : Transfers := {s with transferPlanned := s.transferPlanned ++ added} with planned
      have nothing : s.transferPlanned ++ added = s.transferPlanned ↔ added = [] := List.append_right_eq_self
      have stays : Answered t ↔ added = [] := by
        rw [← unasked]
        exact ⟨fun after => after.once,fun once => ⟨once,answered.asked,answered.moving,answered.running⟩⟩
      by_cases empty : s.transferPlanned ++ added = []
      · obtain ⟨none,more⟩ := List.append_eq_nil_iff.mp empty
        rw [if_pos empty,stays,empty,none,more]
        simp
      · rw [if_neg empty]
        split
        · rw [stays,nothing]
        · split
          · rw [requestAnswered (s := t) answered.asked answered.moving answered.running]
            split
            · exact again
            · rw [List.append_nil,nothing]
              exact unasked
          · rw [← again]
            exact partialAnswered (s := t) answered.asked answered.moving answered.running
    · rename_i stays
      simp [stays,answered]

/- A thread in the place of another one. -/
theorem partialSet {index : Nat} {t u : Partial} (there : s.partials[index]? = some t) :
    (Transfers.waiting {s with partials := s.partials.set index u}).Perm
      (u.files.map FileSize.name ++ Transfers.waiting {s with partials := s.partials.eraseIdx index}) := by
  simp only [Transfers.waiting]
  exact (((permSet there u).flatMap_right _).append_right _).trans (by rw [List.flatMap_cons,List.append_assoc])

theorem partialThere {index : Nat} {t : Partial} (there : s.partials[index]? = some t) :
    s.waiting.Perm (t.files.map FileSize.name ++ Transfers.waiting {s with partials := s.partials.eraseIdx index}) := by
  simp only [Transfers.waiting]
  exact (((permAt there).flatMap_right _).append_right _).trans (by rw [List.flatMap_cons,List.append_assoc])

theorem requestThere {index : Nat} (there : s.requests[index]? = some files) :
    s.waiting.Perm (files.map FileSize.name ++ Transfers.waiting {s with requests := s.requests.eraseIdx index}) := by
  simp only [Transfers.waiting]
  refine ((((permAt there).flatMap_right _).append_right _).append_left _).trans ?_
  rw [List.flatMap_cons,← List.append_assoc,← List.append_assoc,← List.append_assoc,← List.append_assoc]
  exact (List.perm_append_comm.append_right _).append_right _

theorem movingSet {index : Nat} {t u : Partial} (there : s.partials[index]? = some t)
    (moving : ∀ t ∈ s.partials, t.files ≠ [] → t.chunk ≠ some 0) :
    (∀ t ∈ s.partials.set index u, t.files ≠ [] → t.chunk ≠ some 0) ↔ (u.files ≠ [] → u.chunk ≠ some 0) := by
  have perm := permSet there u
  constructor
  · exact fun all => all u (perm.mem_iff.mpr List.mem_cons_self)
  · intro new other inside
    rcases List.mem_cons.mp (perm.mem_iff.mp inside) with rfl | old
    · exact new
    · exact moving other (List.mem_of_mem_eraseIdx old)

theorem keepsStart (index freeChannels : Nat) (answered : Answered s) :
    Answered (partialStart index freeChannels s) ↔ Careful s (.partialStart index freeChannels) := by
  unfold partialStart Careful
  split
  · rename_i files there
    have moving := movingSet (u := ⟨files,some (freeChannels / 3)⟩) there answered.moving
    have chunk : some (freeChannels / 3) ≠ some 0 ↔ 3 ≤ freeChannels := by
      rw [ne_eq,Option.some.injEq]
      omega
    rw [chunk] at moving
    simp only [there,Option.some.injEq,Partial.mk.injEq,and_true,forall_eq']
    rw [← moving]
    refine ⟨fun after => after.moving,fun moves => ⟨?_,answered.asked,moves,answered.running⟩⟩
    exact answered.once.trans ((partialThere there).trans (partialSet (u := ⟨files,some (freeChannels / 3)⟩) there).symm)
  · rename_i other
    exact iff_of_true answered fun files there => absurd there (other files)

theorem keepsTurn (index freeChannels : Nat) (reply : Option Admission) (answered : Answered s) :
    Answered (partialTurn index freeChannels reply s) ↔ Careful s (.partialTurn index freeChannels reply) := by
  unfold partialTurn Careful
  split
  · rename_i files chunk there
    simp only [there,Option.some.injEq,Partial.mk.injEq,and_imp,forall_eq',forall_apply_eq_imp_iff]
    have waits := (partialThere there).symm.trans answered.once.symm
    have moves : files ≠ [] → chunk ≠ 0 := by
      intro any
      have moving := answered.moving _ (List.mem_of_getElem? there) any
      simpa using moving
    have erased : ∀ t ∈ s.partials.eraseIdx index, t.files ≠ [] → t.chunk ≠ some 0 :=
      fun t inside => answered.moving t (List.mem_of_mem_eraseIdx inside)
    have lengths := waits.length_eq
    simp only [List.length_append,List.length_map] at lengths
    split
    · rename_i empty
      subst empty
      exact iff_of_true ⟨waits.symm,answered.asked,erased,answered.running⟩ fun any => absurd rfl any
    · rename_i any
      have long := List.length_pos_iff.mpr any
      split
      · rename_i busy
        exact iff_of_true answered fun _ free => absurd busy (Nat.not_lt.mpr free)
      · rename_i free
        split
        · rename_i thrown
          rw [Option.isNone_iff_eq_none.mp thrown]
          refine iff_of_false (fun after => ?_) (fun refused => ?_)
          · have left := after.once.length_eq
            simp only [List.length_map] at left
            omega
          · exact Bool.noConfusion (refused any (Nat.not_lt.mp free))
        · have kept := (movingSet (u := ⟨files.drop chunk,some chunk⟩) there answered.moving).mpr
            fun _ => by simpa using moves any
          rw [requestAnswered (s := {s with partials := s.partials.set index ⟨files.drop chunk,some chunk⟩})
            answered.asked kept answered.running]
          have rest := partialSet (u := ⟨files.drop chunk,some chunk⟩) there
          cases admitted : reply.any busTransferFilesRequest with
          | true =>
            refine iff_of_true ?_ (fun _ _ => rfl)
            rw [if_pos rfl]
            refine waits.symm.trans (.trans ?_ (rest.append_right _).symm)
            rw [List.append_assoc]
            have parts : (files.map FileSize.name).Perm
                ((files.drop chunk).map FileSize.name ++ (files.take chunk).map FileSize.name) := by
              rw [← List.map_append]
              exact (List.perm_append_comm.trans (by rw [List.take_append_drop])).symm.map _
            exact (parts.append_right _).trans (by
              rw [List.append_assoc]
              exact List.perm_append_comm.append_left _)
          | false =>
            refine iff_of_false (fun same => ?_) (fun refused => Bool.noConfusion (refused any (Nat.not_lt.mp free)))
            have left := same.length_eq
            have more := rest.length_eq
            have step := Nat.pos_of_ne_zero (moves any)
            simp only [Bool.false_eq_true,if_false,List.append_nil,List.length_append,List.length_map,
              List.length_drop] at left more
            omega
  · rename_i other
    exact iff_of_true answered fun files chunk there => absurd there (other files chunk)

theorem keepsServe (index : Nat) (o : Outcome) (answered : Answered s) :
    Answered (serveRequest index o s) ↔ Careful s (.serveRequest index o) := by
  unfold serveRequest Careful
  cases there : s.requests[index]? with
  | none => simp [there,answered]
  | some files =>
    simp only [there,Option.some.injEq,forall_eq']
    rw [← settledIff]
    cases out : transferFilesRequestCommunication o files with
    | none =>
      simp only [reduceCtorEq,false_and,exists_false,iff_false]
      exact fun after => Bool.noConfusion (after.running : true = false)
    | some emitted =>
      simp only [Option.some.injEq,exists_eq_left']
      have before := requestThere there
      have after : (Transfers.waiting {s with
          requests := s.requests.eraseIdx index
          signals := s.signals ++ emitted
          verdicts := s.verdicts ++ emitted.map fun answer => ⟨answer,o⟩}).Perm
          (emitted.map TransferAllow.filepath ++ Transfers.waiting {s with requests := s.requests.eraseIdx index}) := by
        simp only [Transfers.waiting,List.map_append,← List.append_assoc]
        exact List.perm_append_comm.trans (by simp only [List.append_assoc,List.Perm.refl])
      constructor
      · intro answers
        refine ⟨?_,fun a inside => ?_⟩
        · have same := after.symm.trans (answers.once.symm.trans (answered.once.trans before))
          exact (List.perm_append_right_iff _).mp same
        · exact answers.asked ⟨a,o⟩ (List.mem_append_right _ (List.mem_map.mpr ⟨a,inside,rfl⟩))
      · rintro ⟨names,agreed⟩
        refine ⟨?_,?_,answered.moving,answered.running⟩
        · exact answered.once.trans (before.trans ((names.append_right _).symm.trans after.symm))
        · intro v inside
          rcases List.mem_append.mp inside with old | new
          · exact answered.asked v old
          · obtain ⟨a,emits,rfl⟩ := List.mem_map.mp new
            exact agreed a emits

theorem keepsAllow (told : Bool) (answered : Answered s) :
    Answered (onTransferAllow told s) ↔ Careful s (.onTransferAllow told) := by
  unfold onTransferAllow Careful
  cases signals : s.signals with
  | nil => simp [answered]
  | cons a rest =>
    simp only [List.head?_cons,Option.some.injEq,forall_eq']
    have waits : s.waiting.Perm (a.filepath :: Transfers.waiting {s with signals := rest}) := by
      simp only [Transfers.waiting,signals,List.map_cons,← List.append_assoc]
      exact List.perm_middle
    have once := answered.once.trans waits
    obtain ⟨info,inside,named⟩ := List.mem_map.mp (once.mem_iff.mpr List.mem_cons_self)
    obtain ⟨st,found⟩ := Option.isSome_iff_exists.mp (List.find?_isSome.mpr
      ⟨info,inside,by simpa using named.symm⟩ : (s.transferPlanned.find? fun st => a.filepath = st.name).isSome)
    have name : a.filepath = st.name := by simpa using List.find?_some found
    unfold transferAllowed
    rw [found]
    dsimp only
    split
    · rename_i untold
      obtain ⟨accepts,untold⟩ := Bool.and_eq_true_iff.mp untold
      refine iff_of_false (fun after => ?_) (fun tells => ?_)
      · have left := after.once.length_eq
        have more := once.length_eq
        simp only [List.length_map,List.length_cons] at left more
        omega
      · rw [tells accepts] at untold
        contradiction
    · rename_i tells
      refine iff_of_true ⟨?_,answered.asked,answered.moving,answered.running⟩ fun accepts => ?_
      · have erased := ((permErase found).map FileSize.name).symm.trans once
        rw [List.map_cons,← name] at erased
        exact erased.cons_inv
      · simpa [accepts] using tells

theorem keepsStep (s : Transfers) (a : Action) (answered : Answered s) : Answered (step s a) ↔ Careful s a := by
  unfold step
  rw [if_neg (by simp [answered.running])]
  cases a with
  | systemTransferFiles m => exact keepsPlan m answered
  | partialStart index freeChannels => exact keepsStart index freeChannels answered
  | partialTurn index freeChannels reply => exact keepsTurn index freeChannels reply answered
  | serveRequest index o => exact keepsServe index o answered
  | onTransferAllow told => exact keepsAllow told answered

theorem startAnswered : Answered start := ⟨.refl _,by simp [start],by simp [start],rfl⟩

/- With nothing on its way nothing is planned, and no file is held back. -/
theorem noneLeft (answered : Answered s) (done : s.waiting = []) : s.transferPlanned = [] := by
  have none := answered.once
  rw [done] at none
  exact List.map_eq_nil_iff.mp none.eq_nil

end

theorem answeredIff (actions : List Action) :
    Always step Answered start actions ↔ Meets step Careful start actions :=
  alwaysIff (I := fun _ => True) (fun _ _ _ => trivial) (fun s a _ => keepsStep s a) trivial startAnswered actions

/- One file of five bytes from a client, with channels to spare. -/
def oneFile : Action :=
  .systemTransferFiles ⟨true,some [some ("/home/u/a.txt",5)],false,0,200,some ⟨true,true,none,[]⟩⟩

def directoryChosen (question : Dialog) (present : Bool) : Outcome :=
  ⟨question,.exited 0 "/home/v\n",fun dir => dir = "/home/v","/var/lib/ltsm",fun _ => ⟨some 1000000,present,"00ff00ff"⟩⟩

/- Told no, and a directory is asked for all the same. -/
theorem refusedAllowed : ¬ ∀ actions, Always step Answered start actions := by
  intro all
  have reached := all [oneFile,.serveRequest 0 (directoryChosen (.exited 1 "") false)] _ (List.prefix_refl _)
  have verdict : (run step start [oneFile,.serveRequest 0 (directoryChosen (.exited 1 "") false)]).verdicts =
      [⟨⟨"/home/u/a.txt","/var/lib/ltsm/transfer_00ff00ff","/home/v"⟩,directoryChosen (.exited 1 "") false⟩] := by rfl
  have agreed := (reached.asked _ (verdict ▸ List.mem_singleton_self _) (by decide)).1
  exact Bool.noConfusion agreed

end Ltsm.TransferRequests
