import Ltsm.Library.ByteReader

/-! The client's end of a FUSE channel: what it does with a request, and the bytes it
answers with. What the system answers to the calls is given; a descriptor or an errno
carries what the system promises of it. -/
namespace Ltsm.FuseClient
open Library

namespace FuseOp

def ProtoVer : Nat := 2
def Init : Nat := 0xFF01
def Open : Nat := 0xFF05
def Read : Nat := 0xFF06
def Release : Nat := 0xFF07

end FuseOp

structure Errno where
  value : UInt32
  failed : value ≠ 0
  deriving DecidableEq, Repr

structure Stat where
  dev : UInt64
  ino : UInt64
  mode : UInt32
  nlink : UInt64
  uid : UInt32
  gid : UInt32
  rdev : UInt64
  size : UInt64
  blksize : UInt64
  blocks : UInt64
  atime : UInt64
  mtime : UInt64
  ctime : UInt64
  deriving DecidableEq, Repr

/- What replyWriteShareRootInfo has collected below a share. -/
structure ShareInfo where
  inodes : List (Bytes × Stat)
  symlinks : List (UInt64 × UInt64)
  deriving DecidableEq, Repr

/- A descriptor of the system is no negative int, a position no negative off_t. -/
abbrev Descriptor := Fin (2 ^ 31)
abbrev Position := Fin (2 ^ 63)

/- `errno` is what earlier calls have left in it; a call that goes through leaves it alone. -/
structure Kernel where
  errno : UInt32
  getuid : UInt32
  getgid : UInt32
  openFile : Bytes → UInt32 → Except Errno Descriptor
  closeFile : Int → Except Errno Unit
  lseek : Int → UInt64 → Except Errno Position
  readFile : Int → Position → Nat → Except Errno Bytes

/- The application that owns the connector, and the folders below it. -/
structure Owner where
  shareFolders : List Bytes
  shareRootInfo : Bytes → ShareInfo

inductive Request
  | init (mountPoint : Bytes)
  | opened (rid : UInt64) (flags : UInt32) (path : Bytes)
  | read (rid : UInt64) (fdh : UInt32) (blocksz : UInt16) (offset : UInt64)
  | release (rid : UInt64) (fdh : UInt32)
  deriving DecidableEq, Repr

structure State where
  opens : List Int := []
  shareRoot : Bytes := []
  fuseInit : Bool := false
  deriving DecidableEq, Repr

/- The calls that reach a file: a path that is opened with what comes of it, a descriptor
that is read from or closed. -/
inductive Access
  | opens (root path : Bytes) (got : Option Descriptor)
  | reads (fd : Int)
  | closes (fd : Int) (done : Bool)
  deriving DecidableEq, Repr

/- The state after a request, the reply to the channel and the calls that were made. -/
structure Done where
  state : State
  reply : Bytes
  accesses : List Access := []
  deriving DecidableEq, Repr

def replyWriteStatStruct (st : Stat) : Bytes :=
  littleEndian 8 st.dev.toNat ++ littleEndian 8 st.ino.toNat ++ littleEndian 4 st.mode.toNat ++
    littleEndian 8 st.nlink.toNat ++ littleEndian 4 st.uid.toNat ++ littleEndian 4 st.gid.toNat ++
    littleEndian 8 st.rdev.toNat ++ littleEndian 8 st.size.toNat ++ littleEndian 8 st.blksize.toNat ++
    littleEndian 8 st.blocks.toNat ++ littleEndian 8 st.atime.toNat ++ littleEndian 8 st.mtime.toNat ++
    littleEndian 8 st.ctime.toNat

/- A longer path goes out whole behind the largest length. -/
def replyWriteShareRootInfo (info : ShareInfo) : Bytes :=
  littleEndian 4 info.inodes.length ++
    (info.inodes.flatMap fun st => littleEndian 2 (min 0xFFFF st.1.length) ++ st.1 ++ replyWriteStatStruct st.2) ++
    littleEndian 4 info.symlinks.length ++
    info.symlinks.flatMap fun st => littleEndian 8 st.1.toNat ++ littleEndian 8 st.2.toNat

/- An unsigned handle of the peer where the system takes an int. -/
def fdOf (fdh : UInt32) : Int := if fdh.toNat < 2 ^ 31 then fdh.toNat else fdh.toNat - 2 ^ 32

/- The low half of an off_t. -/
def intOf (position : Position) : Int :=
  if position.val % 2 ^ 32 < 2 ^ 31 then (position.val % 2 ^ 32 : Nat) else (position.val % 2 ^ 32 : Nat) - 2 ^ 32

/- What c_str shows of a string. -/
def cString (str : Bytes) : Bytes := str.takeWhile (· ≠ 0)

/- The head of a reply to a request with an id. -/
def replyHead (code : Nat) (rid : UInt64) (error : UInt32) : Bytes :=
  littleEndian 2 code ++ littleEndian 8 rid.toNat ++ littleEndian 4 error.toNat

section
variable (owner : Owner) (kernel : Kernel)

def fuseOpInit (s : State) (mountPoint : Bytes) : Done :=
  let s := if mountPoint ∈ owner.shareFolders then {s with shareRoot := mountPoint, fuseInit := true}
    else {s with fuseInit := false}
  let info := if s.fuseInit then
      littleEndian 2 FuseOp.ProtoVer ++ littleEndian 4 kernel.getuid.toNat ++ littleEndian 4 kernel.getgid.toNat ++
        replyWriteShareRootInfo (owner.shareRootInfo s.shareRoot)
    else []
  {state := s, reply := littleEndian 2 FuseOp.Init ++ littleEndian 4 (if s.fuseInit then 0 else 1) ++ info}

def fuseOpOpen (s : State) (rid : UInt64) (flags : UInt32) (path : Bytes) : Done :=
  let path := s.shareRoot ++ path
  match kernel.openFile (cString path) flags with
  | .error err =>
    {state := s, reply := replyHead FuseOp.Open rid err.value, accesses := [.opens s.shareRoot (cString path) none]}
  | .ok fd =>
    {state := {s with opens := (fd.val : Int) :: s.opens}, reply := replyHead FuseOp.Open rid 0 ++ littleEndian 4 fd.val,
      accesses := [.opens s.shareRoot (cString path) (some fd)]}

def fuseOpRelease (s : State) (rid : UInt64) (fdh : UInt32) : Done :=
  match kernel.closeFile (fdOf fdh) with
  | .error err =>
    {state := s, reply := replyHead FuseOp.Release rid err.value, accesses := [.closes (fdOf fdh) false]}
  | .ok _ =>
    {state := {s with opens := s.opens.filter (· ≠ fdOf fdh)}, reply := replyHead FuseOp.Release rid 0,
      accesses := [.closes (fdOf fdh) true]}

def blockmax : Nat := 48 * 1024

/- The position goes into an int, and errno is looked at when that is below zero. -/
def fuseOpRead (s : State) (rid : UInt64) (fdh : UInt32) (blocksz : UInt16) (offset : UInt64) : Done :=
  match kernel.lseek (fdOf fdh) offset with
  | .error err => {state := s, reply := replyHead FuseOp.Read rid err.value}
  | .ok position =>
    if intOf position < 0 then {state := s, reply := replyHead FuseOp.Read rid kernel.errno}
    else
      let size := min blocksz.toNat blockmax
      match kernel.readFile (fdOf fdh) position size with
      | .error err =>
        {state := s, reply := replyHead FuseOp.Read rid err.value, accesses := [.reads (fdOf fdh)]}
      | .ok data =>
        let buf := data.take size
        {state := s, reply := replyHead FuseOp.Read rid 0 ++ littleEndian 2 buf.length ++ buf,
          accesses := [.reads (fdOf fdh)]}

/- One command of pushData; `none` is its exception for a channel that is not set up. -/
def serve (s : State) : Request → Option Done
  | .init mountPoint => some (fuseOpInit owner kernel s mountPoint)
  | .opened rid flags path => if s.fuseInit then some (fuseOpOpen kernel s rid flags path) else none
  | .read rid fdh blocksz offset => if s.fuseInit then some (fuseOpRead kernel s rid fdh blocksz offset) else none
  | .release rid fdh => if s.fuseInit then some (fuseOpRelease kernel s rid fdh) else none

end

end Ltsm.FuseClient
