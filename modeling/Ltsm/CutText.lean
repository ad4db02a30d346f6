import Ltsm.UpdateMessages

/-! Cut text in both directions. The extended messages of the clipboard travel under
the same type, told apart by a negative length. -/
namespace Ltsm.CutText
open Library PixelStreams UpdateMessages

def SERVER_CUT_TEXT : Nat := 3
def CLIENT_CUT_TEXT : Nat := 6

def sendZero (count : Nat) : Bytes := List.replicate count 0

/- The text stands for what is passed on to the selection, or to the clipboard. -/
inductive Received
  | nothing
  | text (buf : Bytes)
  | extended (buf : Bytes)
  deriving DecidableEq, Repr

/- The difference is taken in 64 bits; the low 32 of it are written. -/
def extLength (size : Nat) : Nat := (((0xFFFFFFFF : Int) - size + 1) % 4294967296).toNat

/- sendCutTextEvent of the server and sendCutTextEventAwait of the client, which differ
in the type only; `none` is the exception. -/
def sendCutText (type : Nat) (remoteCaps : Nat) (buf : Bytes) (ext : Bool) : Option Bytes :=
  if ext = true ∧ remoteCaps = 0 then none
  else some (sendInt8 type ++ (sendZero 3 ++
    (sendIntBE32 (if ext then extLength buf.length else buf.length) ++ buf)))

def toInt32 (value : Nat) : Int := if value < 2147483648 then value else (value : Int) - 4294967296

/- std::abs of the least number has no defined value; nothing can be read by it. -/
def recvAbs (length : Int) : Reader Bytes :=
  if length = -2147483648 then fail else takeBytes length.natAbs

def recvSkip (count : Nat) : Reader Unit := takeBytes count >>= fun _ => pure ()

/- recvCutTextEventAwait of the client. -/
def recvCutTextEvent (localCaps : Nat) : Reader Received :=
  recvSkip 3 >>= fun _ => recvIntBE32 >>= fun word =>
    let length := toInt32 word
    if length < 0 ∧ localCaps = 0 then fail
    else recvAbs length >>= fun buf =>
      if length = 0 then pure .nothing
      else if 0 < length then pure (.text buf)
      else pure (.extended buf)

/- recvCutText of the server; a limit of zero is none. -/
def recvCutText (localCaps limit : Nat) : Reader Received :=
  recvSkip 3 >>= fun _ => recvIntBE32 >>= fun word =>
    let length := toInt32 word
    if 0 < length then
      let recv := if limit = 0 then length.toNat else min length.toNat limit
      takeBytes recv >>= fun buffer => recvSkip (length.toNat - recv) >>= fun _ => pure (.text buffer)
    else if length < 0 then
      if localCaps = 0 then fail else recvAbs length >>= fun buffer => pure (.extended buffer)
    else pure .nothing

/- The two ends read an extended message alike. -/
inductive Side
  | server (limit : Nat) | client
  deriving DecidableEq, Repr

def Side.recv (side : Side) (localCaps : Nat) : Reader Received :=
  match side with
  | .server limit => recvCutText localCaps limit
  | .client => recvCutTextEvent localCaps

/- What sends to a side writes its type. -/
def Side.type : Side → Nat
  | .server _ => CLIENT_CUT_TEXT
  | .client => SERVER_CUT_TEXT

theorem readsSkip (bytes : Bytes) : Reads (recvSkip bytes.length) bytes () :=
  readsMap (readsTake bytes) fun _ => ()

theorem readsZero (count : Nat) : Reads (recvSkip count) (sendZero count) () := by
  have read := readsSkip (sendZero count)
  rwa [sendZero,List.length_replicate] at read

theorem extLengthSmall (size : Nat) : extLength size < 4294967296 := by
  unfold extLength
  omega

theorem toInt32Ext {size : Nat} (some : 0 < size) (small : size < 2147483648) :
    toInt32 (extLength size) = -size := by
  have word : (extLength size : Int) = 4294967296 - size := by
    unfold extLength
    omega
  unfold toInt32
  rw [if_neg (by omega),word]
  omega

theorem toInt32Text {size : Nat} (small : size < 2147483648) : toInt32 size = size := if_pos small

end Ltsm.CutText
