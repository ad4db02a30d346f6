import Ltsm.PcscHandles
import Ltsm.PcscReaders

/-! What the card service answers its local clients: each command comes as a structure of pcsc-lite and
goes back as the same structure, where it has one. What the answers of the remote side bring for the
table of readers is left to that table. -/
namespace Ltsm.PcscLocalReplies
open Library
open PcscCommands hiding ReaderState
open PcscReplies (MAX_READERNAME MAX_BUFFER_SIZE)
open PcscReaders (ReaderState Readers Session.findReaderState)
open PcscHandles (context32)

def SCARD_S_SUCCESS : UInt32 := 0
def SCARD_F_INTERNAL_ERROR : UInt32 := 0x80100001
def SCARD_E_INVALID_HANDLE : UInt32 := 0x80100003
def SCARD_E_INVALID_VALUE : UInt32 := 0x80100011
def SCARD_E_NO_SERVICE : UInt32 := 0x8010001D

/- An array of the structure. -/
abbrev Field (size : Nat) := {bytes : Bytes // bytes.length = size}

def le32 (value : UInt32) : Bytes := littleEndian 4 value.toNat

def resize (size : Nat) (bytes : Bytes) : Bytes := bytes.take size ++ List.replicate (size - bytes.length) 0

/- The commands with what comes behind their codes. -/
inductive Request
  | establishContext (scope context ret : UInt32)
  | releaseContext (context ret : UInt32)
  | connect (context : UInt32) (readerData : Field MAX_READERNAME)
      (shareMode prefferedProtocols handle activeProtocol ret : UInt32)
  | reconnect (handle shareMode prefferedProtocols initialization activeProtocol ret : UInt32)
  | disconnect (handle disposition ret : UInt32)
  | beginTransaction (handle ret : UInt32)
  | endTransaction (handle disposition ret : UInt32)
  | transmit (handle ioSendPciProtocol ioSendPciLength sendLength ioRecvPciProtocol ioRecvPciLength recvLength
      ret : UInt32) (data1 : Field sendLength.toNat)
  | status (handle ret : UInt32)
  | control (handle controlCode sendLength recvLength bytesReturned ret : UInt32) (data1 : Field sendLength.toNat)
  | getAttrib (handle attrId : UInt32) (attr : Field MAX_BUFFER_SIZE) (attrLen ret : UInt32)
  | setAttrib (handle attrId : UInt32) (attr : Field MAX_BUFFER_SIZE) (attrLen ret : UInt32)
  | cancel (context ret : UInt32)
  | getVersion (versionMajor versionMinor ret : UInt32)
  | getReaderState
  | waitReaderStateChangeStart
  | waitReaderStateChangeStop
  deriving DecidableEq

def Request.cmd : Request → Nat
  | .establishContext .. => PcscLite.EstablishContext
  | .releaseContext .. => PcscLite.ReleaseContext
  | .connect .. => PcscLite.Connect
  | .reconnect .. => PcscLite.Reconnect
  | .disconnect .. => PcscLite.Disconnect
  | .beginTransaction .. => PcscLite.BeginTransaction
  | .endTransaction .. => PcscLite.EndTransaction
  | .transmit .. => PcscLite.Transmit
  | .status .. => PcscLite.Status
  | .control .. => PcscLite.Control
  | .getAttrib .. => PcscLite.GetAttrib
  | .setAttrib .. => PcscLite.SetAttrib
  | .cancel .. => PcscLite.Cancel
  | .getVersion .. => PcscLite.GetVersion
  | .getReaderState => PcscLite.GetReaderState
  | .waitReaderStateChangeStart => PcscLite.WaitReaderStateChangeStart
  | .waitReaderStateChangeStop => PcscLite.WaitReaderStateChangeStop

/- What is read as the structure of the command. -/
def Request.received : Request → Bytes
  | .establishContext scope context ret => le32 scope ++ le32 context ++ le32 ret
  | .releaseContext context ret | .cancel context ret => le32 context ++ le32 ret
  | .connect context readerData shareMode prefferedProtocols handle activeProtocol ret =>
    le32 context ++ readerData.val ++ le32 shareMode ++ le32 prefferedProtocols ++ le32 handle ++ le32 activeProtocol ++
      le32 ret
  | .reconnect handle shareMode prefferedProtocols initialization activeProtocol ret => le32 handle ++ le32 shareMode ++
      le32 prefferedProtocols ++ le32 initialization ++ le32 activeProtocol ++ le32 ret
  | .disconnect handle disposition ret | .endTransaction handle disposition ret =>
    le32 handle ++ le32 disposition ++ le32 ret
  | .beginTransaction handle ret | .status handle ret => le32 handle ++ le32 ret
  | .transmit handle ioSendPciProtocol ioSendPciLength sendLength ioRecvPciProtocol ioRecvPciLength recvLength ret _ =>
    le32 handle ++ le32 ioSendPciProtocol ++ le32 ioSendPciLength ++ le32 sendLength ++ le32 ioRecvPciProtocol ++
      le32 ioRecvPciLength ++ le32 recvLength ++ le32 ret
  | .control handle controlCode sendLength recvLength bytesReturned ret _ => le32 handle ++ le32 controlCode ++
      le32 sendLength ++ le32 recvLength ++ le32 bytesReturned ++ le32 ret
  | .getAttrib handle attrId attr attrLen ret | .setAttrib handle attrId attr attrLen ret =>
    le32 handle ++ le32 attrId ++ attr.val ++ le32 attrLen ++ le32 ret
  | .getVersion versionMajor versionMinor ret => le32 versionMajor ++ le32 versionMinor ++ le32 ret
  | .getReaderState | .waitReaderStateChangeStart | .waitReaderStateChangeStop => []

def apiCmdLength (cmd : Nat) : Nat :=
  if cmd = PcscLite.EstablishContext then 12
  else if cmd = PcscLite.ReleaseContext then 8
  else if cmd = PcscLite.Connect then 24 + MAX_READERNAME
  else if cmd = PcscLite.Reconnect then 24
  else if cmd = PcscLite.Disconnect then 12
  else if cmd = PcscLite.BeginTransaction then 8
  else if cmd = PcscLite.EndTransaction then 12
  else if cmd = PcscLite.Transmit then 32
  else if cmd = PcscLite.Status then 8
  else if cmd = PcscLite.Control then 24
  else if cmd = PcscLite.GetAttrib then 16 + MAX_BUFFER_SIZE
  else if cmd = PcscLite.SetAttrib then 16 + MAX_BUFFER_SIZE
  else if cmd = PcscLite.Cancel then 8
  else if cmd = PcscLite.GetVersion then 12
  else 0

/- The commands that an error can be replied to. -/
def implemented : List Nat :=
  [PcscLite.EstablishContext,PcscLite.ReleaseContext,PcscLite.Connect,PcscLite.Reconnect,PcscLite.Disconnect,
    PcscLite.BeginTransaction,PcscLite.EndTransaction,PcscLite.Transmit,PcscLite.Status,PcscLite.Control,
    PcscLite.GetAttrib,PcscLite.SetAttrib]

def replyError (cmd : Nat) (err : UInt32) : List Bytes :=
  if implemented.contains cmd then [List.replicate (apiCmdLength cmd - 4) 0 ++ le32 err] else []

/- The remote side: the numbers that clients have been given, and what it gives back for the calls,
also where the connection to it fails. -/
structure Remote where
  contexts : PcscHandles.Remote
  sendEstablishedContext : UInt32 → UInt64 × UInt32
  sendReleaseContext : UInt64 → UInt32
  sendConnect : UInt64 → UInt32 → UInt32 → Bytes → UInt64 × UInt32 × UInt32
  sendReconnect : UInt64 → UInt32 → UInt32 → UInt32 → UInt32 × UInt32
  sendDisconnect : UInt64 → UInt32 → UInt32
  sendBeginTransaction : UInt64 → UInt32
  sendEndTransaction : UInt64 → UInt32 → UInt32
  sendTransmit : UInt64 → UInt32 → UInt32 → UInt32 → Bytes → UInt32 × UInt32 × UInt32 × Bytes
  sendStatus : UInt64 → UInt32
  sendControl : UInt64 → UInt32 → UInt32 → Bytes → UInt32 × Bytes
  sendGetAttrib : UInt64 → UInt32 → UInt32 × Bytes
  sendSetAttrib : UInt64 → UInt32 → Bytes → UInt32
  sendCancel : UInt64 → UInt32

/- The slots' arrays are whole. -/
structure Table (slots : Nat) where
  readers : Readers slots
  names : ∀ i, (readers i).name.length = MAX_READERNAME
  atrs : ∀ i, (readers i).atr.length = MAX_ATR_SIZE

/- A reader in memory; `event` is never set, and three bytes are padding. -/
def readerBytes (rd : ReaderState) : Bytes :=
  rd.name ++ le32 0 ++ le32 rd.state ++ le32 rd.share ++ rd.atr ++ [0,0,0] ++ littleEndian 4 rd.atrLen ++ le32 rd.protocol

def Table.bytes {slots : Nat} (table : Table slots) : Bytes :=
  (List.finRange slots).flatMap fun i => readerBytes (table.readers i)

structure Local (slots : Nat) where
  context64 : UInt64
  handle64 : UInt64
  context32 : UInt32
  handle32 : UInt32
  reader : Option (Fin slots)
  deriving DecidableEq

/- The code that a command ends with, what it has sent, and the data that the remote side has returned
for it. -/
structure Outcome (slots : Nat) where
  ret : UInt32
  replies : List Bytes
  data : Bytes
  loc : Local slots
  service : Option Remote
  alive : Bool

section
variable {slots : Nat} (table : Table slots) (loc : Local slots) (service : Option Remote)

def refuse (cmd : Nat) (err : UInt32) : Outcome slots := ⟨err,replyError cmd err,[],loc,service,false⟩

def proxyEstablishContext (scope context : UInt32) : Outcome slots :=
  match service with
  | some ptr =>
    let (context64,ret) := ptr.sendEstablishedContext scope
    if ret = SCARD_S_SUCCESS then
      ⟨ret,[le32 scope ++ le32 (context32 context64) ++ le32 ret],[],
        {loc with context64,context32 := context32 context64},
        some {ptr with contexts := ptr.contexts.makeContext64 context64},true⟩
    else ⟨ret,[le32 scope ++ le32 context ++ le32 ret],[],{loc with context64},service,false⟩
  | none => refuse loc service PcscLite.EstablishContext SCARD_E_NO_SERVICE

/- Behind a context that the remote side has not given, the client has its own code back. -/
def proxyReleaseContext (context ret : UInt32) : Outcome slots :=
  if context = 0 ∨ context ≠ loc.context32 then refuse loc service PcscLite.ReleaseContext SCARD_E_INVALID_HANDLE
  else
    match service with
    | none => refuse loc service PcscLite.ReleaseContext SCARD_E_NO_SERVICE
    | some ptr =>
      let ret := if loc.context64 ≠ 0 then ptr.sendReleaseContext loc.context64 else ret
      ⟨ret,[le32 context ++ le32 ret],[],{loc with context64 := 0,context32 := 0},
        some {ptr with contexts := ptr.contexts.removeContext32 loc.context32},false⟩

def proxyConnect (context : UInt32) (readerData : Field MAX_READERNAME)
    (shareMode prefferedProtocols handle : UInt32) : Outcome slots :=
  if context = 0 ∨ context ≠ loc.context32 then refuse loc service PcscLite.Connect SCARD_E_INVALID_HANDLE
  else
    let readerName := readerData.val.takeWhile (· ≠ 0)
    match Session.findReaderState table.readers readerName with
    | none => refuse loc service PcscLite.Connect SCARD_F_INTERNAL_ERROR
    | some currentReader =>
      match service with
      | none => refuse loc service PcscLite.Connect SCARD_E_INVALID_VALUE
      | some ptr =>
        if loc.context64 = 0 then refuse loc service PcscLite.Connect SCARD_F_INTERNAL_ERROR
        else
          let (handle64,activeProtocol,ret) := ptr.sendConnect loc.context64 shareMode prefferedProtocols readerName
          let reply := fun handle => le32 context ++ readerData.val ++ le32 shareMode ++ le32 prefferedProtocols ++
            le32 handle ++ le32 activeProtocol ++ le32 ret
          if ret = SCARD_S_SUCCESS then
            ⟨ret,[reply (context32 handle64)],[],
              {loc with handle64,handle32 := context32 handle64,reader := some currentReader},
              some {ptr with contexts := ptr.contexts.makeContext64 handle64},true⟩
          else ⟨ret,[reply handle],[],{loc with handle64},service,false⟩

/- The tests of a command for a card, each with the command by which its error is replied to. -/
def withCard (invalid noService noHandle : Nat) (handle : UInt32) (use : Remote → Option (Outcome slots)) :
    Option (Outcome slots) :=
  if handle ≠ loc.handle32 then some (refuse loc service invalid SCARD_E_INVALID_HANDLE)
  else
    match service with
    | none => some (refuse loc service noService SCARD_E_NO_SERVICE)
    | some ptr =>
      if loc.handle64 = 0 then some (refuse loc service noHandle SCARD_F_INTERNAL_ERROR) else use ptr

/- What is done through reader_, where the remote side has succeeded. -/
def throughReader (ret : UInt32) (out : Outcome slots) : Option (Outcome slots) :=
  if ret = SCARD_S_SUCCESS ∧ loc.reader = none then none else some out

def proxyReconnect (handle shareMode prefferedProtocols initialization : UInt32) : Option (Outcome slots) :=
  withCard loc service PcscLite.Reconnect PcscLite.Reconnect PcscLite.Reconnect handle fun ptr =>
    let (activeProtocol,ret) := ptr.sendReconnect loc.handle64 shareMode prefferedProtocols initialization
    throughReader loc ret
      ⟨ret,[le32 handle ++ le32 shareMode ++ le32 prefferedProtocols ++ le32 initialization ++ le32 activeProtocol ++
        le32 ret],[],loc,service,ret = SCARD_S_SUCCESS⟩

def proxyDisconnect (handle disposition : UInt32) : Option (Outcome slots) :=
  withCard loc service PcscLite.Disconnect PcscLite.Disconnect PcscLite.Disconnect handle fun ptr =>
    let ret := ptr.sendDisconnect loc.handle64 disposition
    throughReader loc ret
      ⟨ret,[le32 handle ++ le32 disposition ++ le32 ret],[],
        if ret = SCARD_S_SUCCESS then {loc with handle64 := 0,handle32 := 0,reader := none} else loc,service,
        ret = SCARD_S_SUCCESS⟩

/- The assertion about reader_ is no code in a release. -/
def proxyBeginTransaction (handle : UInt32) : Option (Outcome slots) :=
  withCard loc service PcscLite.BeginTransaction PcscLite.BeginTransaction PcscLite.BeginTransaction handle fun ptr =>
    let ret := ptr.sendBeginTransaction loc.handle64
    some ⟨ret,[le32 handle ++ le32 ret],[],loc,service,ret = SCARD_S_SUCCESS⟩

def proxyEndTransaction (handle disposition : UInt32) : Option (Outcome slots) :=
  withCard loc service PcscLite.EndTransaction PcscLite.EndTransaction PcscLite.EndTransaction handle fun ptr =>
    let ret := ptr.sendEndTransaction loc.handle64 disposition
    some ⟨ret,[le32 handle ++ le32 disposition ++ le32 ret],[],loc,service,ret = SCARD_S_SUCCESS⟩

def proxyTransmit (handle ioSendPciProtocol ioSendPciLength sendLength recvLength : UInt32) (data1 : Bytes) :
    Option (Outcome slots) :=
  withCard loc service PcscLite.Transmit PcscLite.Status PcscLite.Status handle fun ptr =>
    let (ioRecvPciProtocol,ioRecvPciLength,ret,data2) :=
      ptr.sendTransmit loc.handle64 ioSendPciProtocol ioSendPciLength recvLength data1
    let recvLength := UInt32.ofNat data2.length
    some ⟨ret,[le32 handle ++ le32 ioSendPciProtocol ++ le32 ioSendPciLength ++ le32 sendLength ++
      le32 ioRecvPciProtocol ++ le32 ioRecvPciLength ++ le32 recvLength ++ le32 ret ++ data2],data2,loc,service,
      ret = SCARD_S_SUCCESS⟩

def proxyStatus (handle : UInt32) : Option (Outcome slots) :=
  withCard loc service PcscLite.Status PcscLite.Status PcscLite.Status handle fun ptr =>
    let ret := ptr.sendStatus loc.handle64
    throughReader loc ret ⟨ret,[le32 handle ++ le32 ret],[],loc,service,ret = SCARD_S_SUCCESS⟩

def proxyControl (handle controlCode sendLength recvLength : UInt32) (data1 : Bytes) : Option (Outcome slots) :=
  withCard loc service PcscLite.Control PcscLite.Status PcscLite.Status handle fun ptr =>
    let (ret,data2) := ptr.sendControl loc.handle64 controlCode recvLength data1
    let bytesReturned := UInt32.ofNat data2.length
    some ⟨ret,[le32 handle ++ le32 controlCode ++ le32 sendLength ++ le32 recvLength ++ le32 bytesReturned ++
      le32 ret ++ data2],data2,loc,service,ret = SCARD_S_SUCCESS⟩

def proxyGetAttrib (handle attrId : UInt32) : Option (Outcome slots) :=
  withCard loc service PcscLite.GetAttrib PcscLite.Status PcscLite.Status handle fun ptr =>
    let (ret,attr) := ptr.sendGetAttrib loc.handle64 attrId
    let attrLen := UInt32.ofNat (min attr.length MAX_BUFFER_SIZE)
    some ⟨ret,[le32 handle ++ le32 attrId ++ resize MAX_BUFFER_SIZE attr ++ le32 attrLen ++ le32 ret],[],loc,service,
      ret = SCARD_S_SUCCESS⟩

def proxySetAttrib (handle attrId : UInt32) (attr : Bytes) (attrLen : UInt32) : Option (Outcome slots) :=
  let attr := resize attrLen.toNat attr
  withCard loc service PcscLite.SetAttrib PcscLite.Status PcscLite.Status handle fun ptr =>
    let ret := ptr.sendSetAttrib loc.handle64 attrId attr
    some ⟨ret,[le32 handle ++ le32 attrId ++ resize MAX_BUFFER_SIZE attr ++ le32 attrLen ++ le32 ret],[],loc,service,
      ret = SCARD_S_SUCCESS⟩

/- Nothing is replied where the service is missing. -/
def proxyCancel (context : UInt32) : Outcome slots :=
  match service with
  | some ptr =>
    let ret := ptr.sendCancel (ptr.contexts.findContext32 context)
    ⟨ret,[le32 context ++ le32 ret],[],loc,service,true⟩
  | none => refuse loc service PcscLite.Cancel SCARD_E_NO_SERVICE

def proxyGetVersion (versionMajor versionMinor ret : UInt32) : Outcome slots :=
  let ret := if versionMajor * 10 + versionMinor < 44 then SCARD_E_NO_SERVICE else ret
  ⟨ret,[le32 versionMajor ++ le32 versionMinor ++ le32 ret],[],loc,service,true⟩

def proxyGetReaderState : Outcome slots := ⟨SCARD_S_SUCCESS,[table.bytes],[],loc,service,true⟩

def proxyReaderStateChangeStart : Outcome slots :=
  match service with
  | some _ => ⟨SCARD_S_SUCCESS,[table.bytes],[],loc,service,true⟩
  | none => ⟨SCARD_E_NO_SERVICE,[],[],loc,service,false⟩

def proxyReaderStateChangeStop : Outcome slots :=
  ⟨SCARD_S_SUCCESS,[le32 0 ++ le32 SCARD_S_SUCCESS],[],loc,service,true⟩

/- There is no outcome where reader_ is used and is null. -/
def clientAction : Request → Option (Outcome slots)
  | .establishContext scope context _ => some (proxyEstablishContext loc service scope context)
  | .releaseContext context ret => some (proxyReleaseContext loc service context ret)
  | .connect context readerData shareMode prefferedProtocols handle _ _ =>
    some (proxyConnect table loc service context readerData shareMode prefferedProtocols handle)
  | .reconnect handle shareMode prefferedProtocols initialization _ _ =>
    proxyReconnect loc service handle shareMode prefferedProtocols initialization
  | .disconnect handle disposition _ => proxyDisconnect loc service handle disposition
  | .beginTransaction handle _ => proxyBeginTransaction loc service handle
  | .endTransaction handle disposition _ => proxyEndTransaction loc service handle disposition
  | .transmit handle ioSendPciProtocol ioSendPciLength sendLength _ _ recvLength _ data1 =>
    proxyTransmit loc service handle ioSendPciProtocol ioSendPciLength sendLength recvLength data1.val
  | .status handle _ => proxyStatus loc service handle
  | .control handle controlCode sendLength recvLength _ _ data1 =>
    proxyControl loc service handle controlCode sendLength recvLength data1.val
  | .getAttrib handle attrId _ _ _ => proxyGetAttrib loc service handle attrId
  | .setAttrib handle attrId attr attrLen _ => proxySetAttrib loc service handle attrId attr.val attrLen
  | .cancel context _ => some (proxyCancel loc service context)
  | .getVersion versionMajor versionMinor ret => some (proxyGetVersion loc service versionMajor versionMinor ret)
  | .getReaderState => some (proxyGetReaderState table loc service)
  | .waitReaderStateChangeStart => some (proxyReaderStateChangeStart table loc service)
  | .waitReaderStateChangeStop => some (proxyReaderStateChangeStop loc service)

end

/- The size of a reader in memory. -/
def readerSize : Nat := MAX_READERNAME + 12 + MAX_ATR_SIZE + 3 + 8

/- The length of what pcsc-lite takes for the answer of a command. -/
def Request.structLength (slots : Nat) : Request → Nat
  | .getReaderState | .waitReaderStateChangeStart => slots * readerSize
  | .waitReaderStateChangeStop => 8
  | request => apiCmdLength request.cmd

/- The table of readers has no code. -/
def Request.hasRet : Request → Bool
  | .getReaderState | .waitReaderStateChangeStart => false
  | _ => true

section
variable {slots : Nat}

/- One reply, of a structure that ends in the code, with the returned data behind it on success. -/
def Answers (request : Request) (out : Outcome slots) : Prop :=
  ∃ fixed : Bytes, out.replies = [fixed ++ if out.ret = SCARD_S_SUCCESS then out.data else []] ∧
    fixed.length = request.structLength slots ∧
    (request.hasRet = true → fixed.drop (request.structLength slots - 4) = le32 out.ret)

def Answered (request : Request) (result : Option (Outcome slots)) : Prop :=
  ∃ out, result = some out ∧ Answers request out

/- A command for a card that gets as far as the remote side. -/
def Reaches (loc : Local slots) (service : Option Remote) (handle : UInt32) : Prop :=
  handle = loc.handle32 → service.isSome = true ∧ loc.handle64 ≠ 0

/- And where it gets there, the answer is like this. -/
def Told (loc : Local slots) (service : Option Remote) (handle : UInt32) (good : Remote → Prop) : Prop :=
  handle = loc.handle32 → loc.handle64 ≠ 0 → ∀ ptr, service = some ptr → good ptr

/- Where there is no service, or the handle of the remote side is missing, a command that is not
answered as Status is has no structure; a call that fails has no data, and one that succeeds has a
reader to be written to. -/
def Served (loc : Local slots) (service : Option Remote) : Request → Prop
  | .transmit handle ioSendPciProtocol ioSendPciLength _ _ _ recvLength _ data1 =>
    Reaches loc service handle ∧ Told loc service handle fun ptr =>
      let (_,_,ret,data2) := ptr.sendTransmit loc.handle64 ioSendPciProtocol ioSendPciLength recvLength data1.val
      ret = SCARD_S_SUCCESS ∨ data2 = []
  | .control handle controlCode _ recvLength _ _ data1 =>
    Reaches loc service handle ∧ Told loc service handle fun ptr =>
      let (ret,data2) := ptr.sendControl loc.handle64 controlCode recvLength data1.val
      ret = SCARD_S_SUCCESS ∨ data2 = []
  | .getAttrib handle .. | .setAttrib handle .. => Reaches loc service handle
  | .cancel .. | .waitReaderStateChangeStart => service.isSome = true
  | .reconnect handle shareMode prefferedProtocols initialization _ _ => Told loc service handle fun ptr =>
      (ptr.sendReconnect loc.handle64 shareMode prefferedProtocols initialization).2 = SCARD_S_SUCCESS →
        loc.reader.isSome = true
  | .disconnect handle disposition _ => Told loc service handle fun ptr =>
      ptr.sendDisconnect loc.handle64 disposition = SCARD_S_SUCCESS → loc.reader.isSome = true
  | .status handle _ => Told loc service handle fun ptr =>
      ptr.sendStatus loc.handle64 = SCARD_S_SUCCESS → loc.reader.isSome = true
  | _ => True

variable {table : Table slots} {loc : Local slots} {service : Option Remote}

@[simp] theorem lengthLe32 (value : UInt32) : (le32 value).length = 4 := by simp [le32]

@[simp] theorem lengthResize (size : Nat) (bytes : Bytes) : (resize size bytes).length = size := by
  simp only [resize,List.length_append,List.length_take,List.length_replicate]
  omega

theorem lengthTable (table : Table slots) : table.bytes.length = slots * readerSize := by
  have each : ∀ i, (readerBytes (table.readers i)).length = readerSize := by
    intro i
    simp only [readerBytes,List.length_append,lengthLe32,table.names,table.atrs,lengthLittleEndian,List.length_cons,
      List.length_nil,readerSize]
  simp [Table.bytes,List.length_flatMap,each]

/- The table of lengths is that of the structures that come in. -/
theorem lengthReceived (request : Request) (some : request.received ≠ []) :
    request.received.length = apiCmdLength request.cmd := by
  cases request with
  | connect context readerData =>
    simp only [Request.received,List.length_append,lengthLe32,readerData.property]
    rfl
  | getAttrib handle attrId attr =>
    simp only [Request.received,List.length_append,lengthLe32,attr.property]
    rfl
  | setAttrib handle attrId attr =>
    simp only [Request.received,List.length_append,lengthLe32,attr.property]
    rfl
  | getReaderState => exact absurd rfl some
  | waitReaderStateChangeStart => exact absurd rfl some
  | waitReaderStateChangeStop => exact absurd rfl some
  | _ =>
    simp only [Request.received,List.length_append,lengthLe32]
    rfl

/- A reply that ends in its code. -/
theorem answersEnding {request : Request} {out : Outcome slots} {front : Bytes}
    (sent : out.replies = [front ++ le32 out.ret ++ if out.ret = SCARD_S_SUCCESS then out.data else []])
    (whole : front.length + 4 = request.structLength slots) : Answers request out := by
  refine ⟨front ++ le32 out.ret,sent,by rw [List.length_append,lengthLe32,whole],fun _ => ?_⟩
  rw [← whole,Nat.add_sub_cancel,List.drop_left]

theorem answersPlain {request : Request} {out : Outcome slots} {front : Bytes}
    (sent : out.replies = [front ++ le32 out.ret]) (plain : out.data = [])
    (whole : front.length + 4 = request.structLength slots) : Answers request out :=
  answersEnding (by rw [sent,plain,ite_self,List.append_nil]) whole

/- Commands whose errors are replied to under their own name. -/
def Owned (request : Request) (slots : Nat) : Prop :=
  implemented.contains request.cmd = true ∧ request.structLength slots = apiCmdLength request.cmd ∧
    Nat.ble 4 (apiCmdLength request.cmd) = true

theorem answersRefusal (request : Request) {err : UInt32} (owned : Owned request slots) :
    Answers request (refuse loc service request.cmd err) := by
  obtain ⟨known,whole,room⟩ := owned
  have room := Nat.le_of_ble_eq_true room
  have sent : (refuse loc service request.cmd err).replies =
      [List.replicate (apiCmdLength request.cmd - 4) 0 ++ le32 err] := by
    simp only [refuse,replyError,if_pos known]
  refine answersPlain sent rfl ?_
  rw [List.length_replicate,whole]
  omega

/- The structure of Status is no other command's that is answered so. -/
theorem refusedAsStatus {request : Request} {err : UInt32} (longer : request.structLength slots ≠ 8) :
    ¬ Answers request (refuse loc service PcscLite.Status err) := by
  rintro ⟨fixed,sent,whole,_⟩
  have known : implemented.contains PcscLite.Status = true := rfl
  simp only [refuse,replyError,if_pos known,ite_self,List.append_nil,List.cons.injEq,and_true] at sent
  subst sent
  rw [List.length_append,lengthLe32,List.length_replicate] at whole
  exact longer whole.symm

theorem cardAnswered {request : Request} {handle : UInt32} {use : Remote → Option (Outcome slots)}
    (owned : Owned request slots) :
    Answered request (withCard loc service request.cmd request.cmd request.cmd handle use) ↔
      Told loc service handle fun ptr => Answered request (use ptr) := by
  unfold withCard Told
  split
  · rename_i other
    exact iff_of_true ⟨_,rfl,answersRefusal request owned⟩ fun same => absurd same other
  · rename_i same
    cases service with
    | none => exact iff_of_true ⟨_,rfl,answersRefusal request owned⟩ fun _ _ ptr none => nomatch none
    | some ptr =>
      dsimp only
      split
      · rename_i none
        exact iff_of_true ⟨_,rfl,answersRefusal request owned⟩ fun _ some => absurd none some
      · rename_i card
        constructor
        · rintro answered _ _ _ ⟨⟩
          exact answered
        · exact fun told => told (not_not.mp same) card ptr rfl

theorem cardAsStatus {request : Request} {handle : UInt32} {use : Remote → Option (Outcome slots)}
    (owned : Owned request slots) (longer : request.structLength slots ≠ 8) :
    Answered request (withCard loc service request.cmd PcscLite.Status PcscLite.Status handle use) ↔
      Reaches loc service handle ∧ Told loc service handle fun ptr => Answered request (use ptr) := by
  have short : ∀ err, ¬ Answered request (some (refuse loc service PcscLite.Status err)) := by
    rintro err ⟨_,⟨⟩,answers⟩
    exact refusedAsStatus longer answers
  unfold withCard Told Reaches
  split
  · rename_i other
    exact iff_of_true ⟨_,rfl,answersRefusal request owned⟩ ⟨fun same => absurd same other,fun same => absurd same other⟩
  · rename_i same
    have same := not_not.mp same
    cases service with
    | none => exact iff_of_false (short _) fun both => absurd (both.1 same).1 Bool.false_ne_true
    | some ptr =>
      dsimp only
      split
      · rename_i none
        exact iff_of_false (short _) fun both => (both.1 same).2 none
      · rename_i card
        constructor
        · intro answered
          refine ⟨fun _ => ⟨rfl,card⟩,?_⟩
          rintro _ _ _ ⟨⟩
          exact answered
        · exact fun both => both.2 same card ptr rfl

/- Without a reader to write to, a success comes to nothing. -/
theorem readerAnswered {request : Request} {ret : UInt32} {out : Outcome slots} (answers : Answers request out) :
    Answered request (throughReader loc ret out) ↔ (ret = SCARD_S_SUCCESS → loc.reader.isSome = true) := by
  unfold throughReader
  split
  · rename_i null
    refine iff_of_false ?_ fun some => by simp [null.2] at some; exact some null.1
    rintro ⟨_,⟨⟩,_⟩
  · rename_i used
    refine iff_of_true ⟨_,rfl,answers⟩ fun success => ?_
    rw [Option.isSome_iff_ne_none]
    exact fun none => used ⟨success,none⟩

/- Data goes out behind any code. -/
theorem dataAnswered {request : Request} {out : Outcome slots} {front : Bytes}
    (sent : out.replies = [front ++ le32 out.ret ++ out.data])
    (whole : front.length + 4 = request.structLength slots) :
    Answers request out ↔ out.ret = SCARD_S_SUCCESS ∨ out.data = [] := by
  constructor
  · rintro ⟨fixed,other,length,_⟩
    by_contra both
    obtain ⟨failed,some⟩ := not_or.mp both
    rw [sent,if_neg failed] at other
    have lengths := congrArg List.length (List.cons.inj other).1
    simp only [List.length_append,lengthLe32,List.length_nil] at lengths
    exact some (List.length_eq_zero_iff.mp (by omega))
  · intro good
    refine answersEnding ?_ whole
    rw [sent]
    rcases good with success | none
    · rw [if_pos success]
    · rw [none,ite_self]

theorem toldAlways {handle : UInt32} {good : Remote → Prop} (all : ∀ ptr, good ptr) : Told loc service handle good :=
  fun _ _ ptr _ => all ptr

theorem toldCongr {handle : UInt32} {good other : Remote → Prop} (same : ∀ ptr, good ptr ↔ other ptr) :
    Told loc service handle good ↔ Told loc service handle other := by
  unfold Told
  simp only [same]

theorem onlyOutcome {request : Request} {out : Outcome slots} : Answered request (some out) ↔ Answers request out :=
  ⟨by rintro ⟨_,⟨⟩,answers⟩; exact answers,fun answers => ⟨out,rfl,answers⟩⟩

theorem unanswered {request : Request} {out : Outcome slots} (silent : out.replies = []) :
    ¬ Answered request (some out) := by
  rintro ⟨_,⟨⟩,fixed,sent,_⟩
  rw [silent] at sent
  cases sent

theorem tableAnswers {request : Request} {out : Outcome slots} (sent : out.replies = [table.bytes])
    (plain : out.data = []) (whole : request.structLength slots = slots * readerSize) (bare : request.hasRet = false) :
    Answers request out := by
  refine ⟨table.bytes,?_,(lengthTable table).trans whole.symm,fun code => absurd code (by simp [bare])⟩
  rw [sent,plain,ite_self,List.append_nil]

theorem establishAnswered (scope context ret : UInt32) :
    Answers (.establishContext scope context ret) (proxyEstablishContext loc service scope context) := by
  unfold proxyEstablishContext
  cases service with
  | none => exact answersRefusal (.establishContext scope context ret) ⟨rfl,rfl,rfl⟩
  | some ptr =>
    dsimp only
    split
    · exact answersPlain rfl rfl rfl
    · exact answersPlain rfl rfl rfl

theorem releaseAnswered (context ret : UInt32) :
    Answers (.releaseContext context ret) (proxyReleaseContext loc service context ret) := by
  have refused : ∀ err, Answers (.releaseContext context ret) (refuse loc service PcscLite.ReleaseContext err) :=
    fun err => answersRefusal (.releaseContext context ret) ⟨rfl,rfl,rfl⟩
  unfold proxyReleaseContext
  split
  · exact refused _
  · cases service with
    | none => exact refused _
    | some ptr => exact answersPlain rfl rfl rfl

theorem connectAnswered (context : UInt32) (readerData : Field MAX_READERNAME)
    (shareMode prefferedProtocols handle activeProtocol ret : UInt32) :
    Answers (.connect context readerData shareMode prefferedProtocols handle activeProtocol ret)
      (proxyConnect table loc service context readerData shareMode prefferedProtocols handle) := by
  have refused : ∀ err, Answers (.connect context readerData shareMode prefferedProtocols handle activeProtocol ret)
      (refuse loc service PcscLite.Connect err) := fun err =>
    answersRefusal (.connect context readerData shareMode prefferedProtocols handle activeProtocol ret) ⟨rfl,rfl,rfl⟩
  have whole : ∀ handle activeProtocol, (le32 context ++ readerData.val ++ le32 shareMode ++ le32 prefferedProtocols ++
      le32 handle ++ le32 activeProtocol).length + 4 = 24 + MAX_READERNAME := by
    intro handle activeProtocol
    simp only [List.length_append,lengthLe32,readerData.property]
    rfl
  unfold proxyConnect
  split
  · exact refused _
  · dsimp only
    split
    · exact refused _
    · cases service with
      | none => exact refused _
      | some ptr =>
        dsimp only
        split
        · exact refused _
        · split
          · exact answersPlain rfl rfl (whole _ _)
          · exact answersPlain rfl rfl (whole _ _)

/- A command is answered with its structure exactly where it is served. -/
theorem localAnsweredIff (table : Table slots) (loc : Local slots) (service : Option Remote) (request : Request) :
    Answered request (clientAction table loc service request) ↔ Served loc service request := by
  cases request with
  | establishContext scope context ret => exact iff_of_true ⟨_,rfl,establishAnswered scope context ret⟩ trivial
  | releaseContext context ret => exact iff_of_true ⟨_,rfl,releaseAnswered context ret⟩ trivial
  | connect context readerData shareMode prefferedProtocols handle activeProtocol ret =>
    exact iff_of_true ⟨_,rfl,connectAnswered context readerData shareMode prefferedProtocols handle activeProtocol ret⟩
      trivial
  | reconnect handle shareMode prefferedProtocols initialization activeProtocol ret =>
    refine (cardAnswered ⟨rfl,rfl,rfl⟩).trans (toldCongr fun ptr => readerAnswered ?_)
    exact answersPlain rfl rfl rfl
  | disconnect handle disposition ret =>
    refine (cardAnswered ⟨rfl,rfl,rfl⟩).trans (toldCongr fun ptr => readerAnswered ?_)
    exact answersPlain rfl rfl rfl
  | beginTransaction handle ret =>
    refine (cardAnswered ⟨rfl,rfl,rfl⟩).trans (iff_of_true (toldAlways fun ptr => ⟨_,rfl,?_⟩) trivial)
    exact answersPlain rfl rfl rfl
  | endTransaction handle disposition ret =>
    refine (cardAnswered ⟨rfl,rfl,rfl⟩).trans (iff_of_true (toldAlways fun ptr => ⟨_,rfl,?_⟩) trivial)
    exact answersPlain rfl rfl rfl
  | transmit handle ioSendPciProtocol ioSendPciLength sendLength ioRecvPciProtocol ioRecvPciLength recvLength ret data1 =>
    refine (cardAsStatus ⟨rfl,rfl,rfl⟩ (Nat.ne_of_beq_eq_false rfl)).trans
      (and_congr_right fun _ => toldCongr fun ptr => ?_)
    exact onlyOutcome.trans (dataAnswered rfl rfl)
  | status handle ret =>
    refine (cardAnswered ⟨rfl,rfl,rfl⟩).trans (toldCongr fun ptr => readerAnswered ?_)
    exact answersPlain rfl rfl rfl
  | control handle controlCode sendLength recvLength bytesReturned ret data1 =>
    refine (cardAsStatus ⟨rfl,rfl,rfl⟩ (Nat.ne_of_beq_eq_false rfl)).trans
      (and_congr_right fun _ => toldCongr fun ptr => ?_)
    exact onlyOutcome.trans (dataAnswered rfl rfl)
  | getAttrib handle attrId attr attrLen ret =>
    refine (cardAsStatus ⟨rfl,rfl,rfl⟩ (Nat.ne_of_beq_eq_false rfl)).trans (and_iff_left (toldAlways fun ptr => ⟨_,rfl,?_⟩))
    refine answersPlain rfl rfl ?_
    simp only [List.length_append,lengthLe32,lengthResize]
    rfl
  | setAttrib handle attrId attr attrLen ret =>
    refine (cardAsStatus ⟨rfl,rfl,rfl⟩ (Nat.ne_of_beq_eq_false rfl)).trans (and_iff_left (toldAlways fun ptr => ⟨_,rfl,?_⟩))
    refine answersPlain rfl rfl ?_
    simp only [List.length_append,lengthLe32,lengthResize]
    rfl
  | cancel context ret =>
    cases service with
    | some ptr => exact iff_of_true ⟨_,rfl,answersPlain rfl rfl rfl⟩ rfl
    | none => exact iff_of_false (unanswered rfl) Bool.false_ne_true
  | getVersion versionMajor versionMinor ret => exact iff_of_true ⟨_,rfl,answersPlain rfl rfl rfl⟩ trivial
  | getReaderState => exact iff_of_true ⟨_,rfl,tableAnswers rfl rfl rfl rfl⟩ trivial
  | waitReaderStateChangeStart =>
    cases service with
    | some ptr => exact iff_of_true ⟨_,rfl,tableAnswers rfl rfl rfl rfl⟩ rfl
    | none => exact iff_of_false (unanswered rfl) Bool.false_ne_true
  | waitReaderStateChangeStop => exact iff_of_true ⟨_,rfl,answersPlain (show _ = [le32 0 ++ le32 _] from rfl) rfl rfl⟩ trivial

end

def noReaders : Table 16 := ⟨fun _ => ReaderState.reset,fun _ => rfl,fun _ => rfl⟩

/- A client that is connected to a card, when the service is gone. -/
theorem transmitCutShort : ¬ ∀ (table : Table 16) loc service request,
    Answered request (clientAction table loc service request) := by
  intro all
  have short := onlyOutcome.mp (all noReaders ⟨1,2,3,4,none⟩ none (.transmit 4 1 8 0 1 8 264 0 ⟨[],rfl⟩))
  exact refusedAsStatus (Nat.ne_of_beq_eq_false rfl) short

end Ltsm.PcscLocalReplies
