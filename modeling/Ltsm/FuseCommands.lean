import Ltsm.FuseClient
import Ltsm.StreamBufs

/-! The commands of the FUSE channel, as the client's connector reads them. -/
namespace Ltsm.FuseCommands
open Library StreamBufs FuseClient

/- The version goes first, but is looked at when the path is there; another one is taken
for a command that is not complete. -/
def recvInit : Parse Request := do
  need 4
  let fuseVer ← readIntLE16
  let len ← readIntLE16
  need len.toNat
  if fuseVer.toNat ≠ FuseOp.ProtoVer then underflow
  else do
    let mountPoint ← read len.toNat
    pure (.init mountPoint)

def recvOpen : Parse Request := do
  need 14
  let rid ← readIntLE64
  let flags ← readIntLE32
  let len ← readIntLE16
  need len.toNat
  let path ← read len.toNat
  pure (.opened rid flags path)

def recvRead : Parse Request := do
  need 22
  let rid ← readIntLE64
  let fdh ← readIntLE32
  let blocksz ← readIntLE16
  let offset ← readIntLE64
  pure (.read rid fdh blocksz offset)

def recvRelease : Parse Request := do
  need 12
  let rid ← readIntLE64
  let fdh ← readIntLE32
  pure (.release rid fdh)

/- The switch of pushData. -/
def recvCmd (fuseInit : Bool) (fuseCmd : UInt16) : Parse Request :=
  if fuseInit = false ∧ fuseCmd.toNat ≠ FuseOp.Init then thrown
  else if fuseCmd.toNat = FuseOp.Init then recvInit
  else if fuseCmd.toNat = FuseOp.Open then recvOpen
  else if fuseCmd.toNat = FuseOp.Read then recvRead
  else if fuseCmd.toNat = FuseOp.Release then recvRelease
  else thrown

/- The connector, and how many requests the system has answered. -/
structure Served where
  state : State := {}
  count : Nat := 0

/- Each request finds the system as it is then. -/
def execute (owner : Owner) (kernels : Nat → Kernel) (s : Served) (req : Request) : Option Served :=
  (serve owner (kernels s.count) s.state req).map fun done => ⟨done.state,s.count + 1⟩

def code : Request → UInt16
  | .init _ => UInt16.ofNat FuseOp.Init
  | .opened .. => UInt16.ofNat FuseOp.Open
  | .read .. => UInt16.ofNat FuseOp.Read
  | .release .. => UInt16.ofNat FuseOp.Release

def body : Request → Bytes
  | .init mountPoint => littleEndian 2 FuseOp.ProtoVer ++ littleEndian 2 mountPoint.length ++ mountPoint
  | .opened rid flags path =>
    littleEndian 8 rid.toNat ++ littleEndian 4 flags.toNat ++ littleEndian 2 path.length ++ path
  | .read rid fdh blocksz offset => littleEndian 8 rid.toNat ++ littleEndian 4 fdh.toNat ++
      littleEndian 2 blocksz.toNat ++ littleEndian 8 offset.toNat
  | .release rid fdh => littleEndian 8 rid.toNat ++ littleEndian 4 fdh.toNat

/- The path that a command ends in. -/
def path : Request → Option Bytes
  | .init mountPoint => some mountPoint
  | .opened _ _ path => some path
  | _ => none

def isInit : Request → Bool
  | .init _ => true
  | _ => false

def Valid (req : Request) : Prop := ∀ str ∈ path req, str.length < 2 ^ 16

/- The channel is set up, or the command does that. -/
def Admitted (s : Served) (req : Request) : Prop := s.state.fuseInit = true ∨ isInit req = true

def Closed (s : Served) (req : Request) (more : Bytes) : Prop := Admitted s req ∧ (path req = some [] → more = [])

instance : Keeps recvInit := by unfold recvInit; infer_instance
instance : Keeps recvOpen := by unfold recvOpen; infer_instance
instance : Keeps recvRead := by unfold recvRead; infer_instance
instance : Keeps recvRelease := by unfold recvRelease; infer_instance

theorem recvCmdKeeps (fuseInit : Bool) (fuseCmd : UInt16) : Keeps (recvCmd fuseInit fuseCmd) := by
  unfold recvCmd
  infer_instance

/- What a command is read as, behind its code. -/
theorem recvInitTakes (mountPoint : Bytes) (valid : mountPoint.length < 2 ^ 16) :
    Takes recvInit (body (.init mountPoint)) (.init mountPoint) (fun more => mountPoint = [] → more = [])
      (fun _ => True) := by
  refine takesFrontAny (takesRest (by simp)) (by simp) fun more => ?_
  have same : ¬ (UInt16.ofNat FuseOp.ProtoVer).toNat ≠ FuseOp.ProtoVer := by decide
  have two : FuseOp.ProtoVer < 2 ^ 16 := by decide
  rw [List.append_assoc,readIntLE16Number two,readIntLE16Number valid]
  simp only [if_neg same,UInt16.toNat_ofNat_of_lt' valid]

theorem recvOpenTakes (rid : UInt64) (flags : UInt32) (path : Bytes) (valid : path.length < 2 ^ 16) :
    Takes recvOpen (body (.opened rid flags path)) (.opened rid flags path) (fun more => path = [] → more = [])
      (fun _ => True) := by
  refine takesFrontAny (takesRest (by simp)) (by simp) fun more => ?_
  rw [List.append_assoc,List.append_assoc,readIntLE64Front,readIntLE32Front,readIntLE16Number valid,
    UInt16.toNat_ofNat_of_lt' valid]

theorem recvReadTakes (rid : UInt64) (fdh : UInt32) (blocksz : UInt16) (offset : UInt64) :
    Takes recvRead (body (.read rid fdh blocksz offset)) (.read rid fdh blocksz offset) (fun _ => True)
      (fun _ => True) := by
  refine takesFixed (by simp [body]) fun more => ?_
  simp only [body,List.append_assoc,readIntLE64Front,readIntLE32Front,readIntLE16Front]

theorem recvReleaseTakes (rid : UInt64) (fdh : UInt32) :
    Takes recvRelease (body (.release rid fdh)) (.release rid fdh) (fun _ => True) (fun _ => True) := by
  refine takesFixed (by simp [body]) fun more => ?_
  simp only [body,List.append_assoc,readIntLE64Front,readIntLE32Front]

/- Before the channel is set up every other command throws. -/
theorem recvCmdRefused (req : Request) (other : isInit req = false) : recvCmd false (code req) = thrown := by
  cases req with
  | init _ => cases other
  | _ => rfl

theorem recvCmdTakes (s : Served) (req : Request) (valid : Valid req) :
    Takes (recvCmd s.state.fuseInit (code req)) (body req) req (Closed s req) (fun _ => Admitted s req) := by
  by_cases admitted : Admitted s req
  · have known : Takes (recvCmd s.state.fuseInit (code req)) (body req) req
        (fun more => path req = some [] → more = []) (fun _ => True) := by
      cases req with
      | init mountPoint =>
        have here : recvCmd s.state.fuseInit (code (.init mountPoint)) = recvInit := by cases s.state.fuseInit <;> rfl
        rw [here]
        simpa [path] using recvInitTakes mountPoint (valid mountPoint rfl)
      | opened rid flags str =>
        have set : s.state.fuseInit = true := by simpa [Admitted,isInit] using admitted
        have here : recvCmd true (code (.opened rid flags str)) = recvOpen := rfl
        rw [set,here]
        simpa [path] using recvOpenTakes rid flags str (valid str rfl)
      | read rid fdh blocksz offset =>
        have set : s.state.fuseInit = true := by simpa [Admitted,isInit] using admitted
        have here : recvCmd true (code (.read rid fdh blocksz offset)) = recvRead := rfl
        rw [set,here]
        simpa [path] using recvReadTakes rid fdh blocksz offset
      | release rid fdh =>
        have set : s.state.fuseInit = true := by simpa [Admitted,isInit] using admitted
        have here : recvCmd true (code (.release rid fdh)) = recvRelease := rfl
        rw [set,here]
        simpa [path] using recvReleaseTakes rid fdh
    exact known.congr (fun more => by simp [Closed,admitted]) fun _ _ => by simp [admitted]
  · have none : s.state.fuseInit = false ∧ isInit req = false := by simpa [Admitted] using admitted
    rw [none.1,recvCmdRefused req none.2]
    exact ⟨by simp [thrown,Closed,admitted],by simp [thrown,admitted]⟩

theorem bodyFilled (req : Request) : 3 ≤ 2 + (body req).length := by
  cases req <;> simp [body] <;> omega

def format : Format Served Request where
  header := 3
  dispatch s := recvCmd s.state.fuseInit
  keeps _ := recvCmdKeeps _
  Valid := Valid
  code := code
  body := body
  Closed := Closed
  Splits s req _ := Admitted s req
  afterCode := codeInHeader
  filled := bodyFilled
  takes := recvCmdTakes

end Ltsm.FuseCommands
