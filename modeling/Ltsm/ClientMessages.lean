import Ltsm.RfbFields

/-! The messages of the client and the handlers of the server for them. A handler is
run after the type of the message has been read, and returns what it has read. -/
namespace Ltsm.ClientMessages
open Library PixelStreams Regions UpdateMessages CutText RfbFields

def CLIENT_SET_PIXEL_FORMAT : Nat := 0
def CLIENT_SET_ENCODINGS : Nat := 2
def CLIENT_REQUEST_FB_UPDATE : Nat := 3
def CLIENT_EVENT_KEY : Nat := 4
def CLIENT_EVENT_POINTER : Nat := 5
def CLIENT_CONTINUOUS_UPDATES : Nat := 150
def CLIENT_SET_DESKTOP_SIZE : Nat := 251

/- The pixel format of the client, without its alpha channel. -/
structure LocalFormat where
  bitsPerPixel : UInt8
  redMax : UInt16
  greenMax : UInt16
  blueMax : UInt16
  redShift : UInt8
  greenShift : UInt8
  blueShift : UInt8
  deriving DecidableEq, Repr

abbrev Area := {reg : Region // Stored reg}

inductive ClientMessage
  | pixelFormat (pf : LocalFormat)
  | encodings (types : List Int32)
  | frameBufferUpdate (reg : Area) (incr : Bool)
  | keyEvent (pressed : Bool) (keysym : UInt32) (scancode : UInt16)
  | pointerEvent (buttons : UInt8) (posx posy : UInt16)
  | cutTextEvent (buf : Bytes) (ext : Bool)
  | continuousUpdates (enable : Bool) (reg : Area)
  | setDesktopSize (width height : UInt16)
  | ltsmChannelData (channel : UInt8) (buf : Bytes)

structure ClientSide where
  platformBigEndian : Bool
  extClipboardRemoteCaps : Nat
  deriving DecidableEq, Repr

namespace ClientSide
variable (c : ClientSide)

def sendPixelFormat (pf : LocalFormat) : Bytes :=
  sendInt8 CLIENT_SET_PIXEL_FORMAT ++ (sendZero 3 ++ (sendInt8 pf.bitsPerPixel.toNat ++ (sendInt8 24 ++
    (sendInt8 c.platformBigEndian.toNat ++ (sendInt8 1 ++
    (sendIntBE16 pf.redMax.toNat ++ (sendIntBE16 pf.greenMax.toNat ++ (sendIntBE16 pf.blueMax.toNat ++
    (sendInt8 pf.redShift.toNat ++ (sendInt8 pf.greenShift.toNat ++ (sendInt8 pf.blueShift.toNat ++
      sendZero 3)))))))))))

def sendEncodings (types : List Int32) : Bytes :=
  sendInt8 CLIENT_SET_ENCODINGS ++ (sendZero 1 ++ (sendIntBE16 types.length ++
    types.flatMap fun val => sendIntBE32 val.toUInt32.toNat))

def sendRegion (reg : Region) : Bytes :=
  sendIntBE16 (toUInt16 reg.x) ++ (sendIntBE16 (toUInt16 reg.y) ++ (sendIntBE16 reg.width ++
    sendIntBE16 reg.height))

def sendFrameBufferUpdate (reg : Region) (incr : Bool) : Bytes :=
  sendInt8 CLIENT_REQUEST_FB_UPDATE ++ (sendInt8 incr.toNat ++ sendRegion reg)

def sendContinuousUpdates (enable : Bool) (reg : Region) : Bytes :=
  sendInt8 CLIENT_CONTINUOUS_UPDATES ++ (sendInt8 enable.toNat ++ sendRegion reg)

/- One screen; its position is one word. -/
def sendSetDesktopSize (width height : UInt16) : Bytes :=
  sendInt8 CLIENT_SET_DESKTOP_SIZE ++ (sendZero 1 ++ (sendIntBE16 width.toNat ++ (sendIntBE16 height.toNat ++
    (sendInt8 1 ++ (sendZero 1 ++ (sendIntBE32 0 ++ (sendIntBE32 0 ++
    (sendIntBE16 width.toNat ++ (sendIntBE16 height.toNat ++ sendIntBE32 0)))))))))

def sendKeyEvent (pressed : Bool) (keysym : UInt32) (scancode : UInt16) : Bytes :=
  sendInt8 CLIENT_EVENT_KEY ++ (sendInt8 pressed.toNat ++ (sendIntBE16 scancode.toNat ++
    sendIntBE32 keysym.toNat))

def sendPointerEvent (buttons : UInt8) (posx posy : UInt16) : Bytes :=
  sendInt8 CLIENT_EVENT_POINTER ++ (sendInt8 buttons.toNat ++ (sendIntBE16 posx.toNat ++
    sendIntBE16 posy.toNat))

/- `none` where nothing is sent. -/
def send : ClientMessage → Option Bytes
  | .pixelFormat pf => some (c.sendPixelFormat pf)
  | .encodings types => some (sendEncodings types)
  | .frameBufferUpdate reg incr => some (sendFrameBufferUpdate reg incr)
  | .keyEvent pressed keysym scancode => some (sendKeyEvent pressed keysym scancode)
  | .pointerEvent buttons posx posy => some (sendPointerEvent buttons posx posy)
  | .cutTextEvent buf ext => sendCutText CLIENT_CUT_TEXT c.extClipboardRemoteCaps buf ext
  | .continuousUpdates enable reg => some (sendContinuousUpdates enable reg)
  | .setDesktopSize width height => some (sendSetDesktopSize width height)
  | .ltsmChannelData channel buf => sendLtsmChannel channel buf

end ClientSide

structure ScreenInfo where
  id : UInt32
  region : Region
  flags : UInt32
  deriving DecidableEq, Repr

/- What the server has read of a message. -/
inductive ServerEvent
  | pixelFormat (msg : SetPixelFormat)
  | setEncodings (types : List Int32)
  | frameBufferUpdate (incremental : Bool) (reg : Region)
  | keyCode (pressed : Bool) (keycode : UInt32) (scancode : UInt16)
  | pointer (buttons : UInt8) (posx posy : UInt16)
  | cutText (got : Received)
  | setContinuousUpdates (enable : Bool) (reg : Region)
  | setDesktopSize (width height : UInt16) (screens : List ScreenInfo)
  | ltsmProto (channel : UInt8) (buf : Bytes)
  deriving DecidableEq, Repr

structure ServerSide where
  stream : EncoderStream
  clientLtsmSupported : Bool
  clientLtsmKeyboard : Bool
  extClipboardLocalCaps : Nat
  localExtClipTypeTextSz : Nat
  deriving DecidableEq, Repr

def recvBool : Reader Bool := recvInt8 >>= fun value => pure (value ≠ 0)

def recvRegion : Reader Region :=
  recvIntBE16 >>= fun x => recvIntBE16 >>= fun y => recvIntBE16 >>= fun width => recvIntBE16 >>= fun height =>
    pure ⟨toInt16 x,toInt16 y,width,height⟩

namespace ServerSide
variable (e : ServerSide)

def recvPixelFormat : Reader ServerEvent :=
  recvSkip 3 >>= fun _ => recvUInt8 >>= fun bitsPerPixel => recvUInt8 >>= fun depth =>
    recvUInt8 >>= fun bigEndian => recvUInt8 >>= fun trueColor =>
    recvUInt16 >>= fun redMax => recvUInt16 >>= fun greenMax => recvUInt16 >>= fun blueMax =>
    recvUInt8 >>= fun redShift => recvUInt8 >>= fun greenShift => recvUInt8 >>= fun blueShift =>
    recvSkip 3 >>= fun _ =>
      let msg : SetPixelFormat := ⟨bitsPerPixel,depth,bigEndian,trueColor,redMax,greenMax,blueMax,
        redShift,greenShift,blueShift⟩
      ofOption (PixelStreams.recvPixelFormat msg e.stream) >>= fun _ => pure (.pixelFormat msg)

def recvSetEncodings : Reader ServerEvent :=
  recvSkip 1 >>= fun _ => recvIntBE16 >>= fun numEncodings => recvMany recvInt32 numEncodings >>= fun types =>
    pure (.setEncodings types)

def recvFramebufferUpdate : Reader ServerEvent :=
  recvBool >>= fun incremental => recvRegion >>= fun reg => pure (.frameBufferUpdate incremental reg)

/- Without its encoding the scancode is padding. -/
def recvKeyCode : Reader ServerEvent :=
  if e.clientLtsmKeyboard then
    recvBool >>= fun pressed => recvUInt16 >>= fun scancode => recvUInt32 >>= fun keycode =>
      pure (.keyCode pressed keycode scancode)
  else
    recvBool >>= fun pressed => recvSkip 2 >>= fun _ => recvUInt32 >>= fun keycode =>
      pure (.keyCode pressed keycode 0)

def recvPointer : Reader ServerEvent :=
  recvUInt8 >>= fun buttons => recvUInt16 >>= fun posx => recvUInt16 >>= fun posy =>
    pure (.pointer buttons posx posy)

def recvSetContinuousUpdates : Reader ServerEvent :=
  recvBool >>= fun enable => recvRegion >>= fun reg => pure (.setContinuousUpdates enable reg)

def recvScreenInfo : Reader ScreenInfo :=
  recvUInt32 >>= fun id => recvRegion >>= fun region => recvUInt32 >>= fun flags => pure ⟨id,region,flags⟩

def recvSetDesktopSize : Reader ServerEvent :=
  recvSkip 1 >>= fun _ => recvUInt16 >>= fun width => recvUInt16 >>= fun height =>
    recvInt8 >>= fun numOfScreens => recvSkip 1 >>= fun _ =>
      recvMany recvScreenInfo numOfScreens >>= fun screens => pure (.setDesktopSize width height screens)

/- The handler for a type; other types end the session. -/
def handler (msgType : Nat) : Reader ServerEvent :=
  if msgType = PROTOCOL_LTSM then
    if e.clientLtsmSupported then recvLtsmProto >>= fun data => pure (.ltsmProto data.1 data.2)
    else fail
  else if msgType = CLIENT_SET_PIXEL_FORMAT then e.recvPixelFormat
  else if msgType = CLIENT_SET_ENCODINGS then recvSetEncodings
  else if msgType = CLIENT_REQUEST_FB_UPDATE then recvFramebufferUpdate
  else if msgType = CLIENT_EVENT_KEY then e.recvKeyCode
  else if msgType = CLIENT_EVENT_POINTER then recvPointer
  else if msgType = CLIENT_CUT_TEXT then
    recvCutText e.extClipboardLocalCaps e.localExtClipTypeTextSz >>= fun got => pure (.cutText got)
  else if msgType = CLIENT_SET_DESKTOP_SIZE then recvSetDesktopSize
  else if msgType = CLIENT_CONTINUOUS_UPDATES then recvSetContinuousUpdates
  else fail

def rfbMessage : Reader ServerEvent := recvInt8 >>= e.handler

end ServerSide

/- The fields the client has sent. -/
def ClientMessage.fields (c : ClientSide) : ClientMessage → ServerEvent
  | .pixelFormat pf => .pixelFormat ⟨pf.bitsPerPixel,24,if c.platformBigEndian then 1 else 0,1,
      pf.redMax,pf.greenMax,pf.blueMax,pf.redShift,pf.greenShift,pf.blueShift⟩
  | .encodings types => .setEncodings types
  | .frameBufferUpdate reg incr => .frameBufferUpdate incr reg
  | .keyEvent pressed keysym scancode => .keyCode pressed keysym scancode
  | .pointerEvent buttons posx posy => .pointer buttons posx posy
  | .cutTextEvent buf ext => .cutText (cutText buf ext)
  | .continuousUpdates enable reg => .setContinuousUpdates enable reg
  | .setDesktopSize width height =>
    .setDesktopSize width height [⟨0,⟨0,0,width.toNat,height.toNat⟩,0⟩]
  | .ltsmChannelData channel buf => .ltsmProto channel buf

/- A format the server goes on with. -/
structure LocalFormat.Supported (pf : LocalFormat) : Prop where
  bits : pf.bitsPerPixel = 32 ∨ pf.bitsPerPixel = 16 ∨ pf.bitsPerPixel = 8
  red : pf.redMax ≠ 0
  green : pf.greenMax ≠ 0
  blue : pf.blueMax ≠ 0

/- When the server reads the message whole, with the fields as they were sent. -/
def ServerSide.ReadsWhen (e : ServerSide) : ClientMessage → Prop
  | .pixelFormat pf => pf.Supported
  | .encodings types => types.length < 65536
  | .keyEvent _ _ scancode => e.clientLtsmKeyboard = true ∨ scancode = 0
  | .cutTextEvent buf ext => CutTextWhen (.server e.localExtClipTypeTextSz) e.extClipboardLocalCaps buf ext
  | .ltsmChannelData _ _ => e.clientLtsmSupported = true
  | _ => True

section
variable {e : ServerSide}

theorem readsFlag (value : Bool) : Reads recvBool (sendInt8 value.toNat) value := by
  have read := readsMap (readsBool value) fun value => decide (value ≠ 0)
  cases value <;> exact read

theorem readsRegion (reg : Area) : Reads recvRegion (ClientSide.sendRegion reg) reg.val := by
  obtain ⟨reg,stored⟩ := reg
  have read : Reads recvRegion (ClientSide.sendRegion reg)
      ⟨toInt16 (toUInt16 reg.x),toInt16 (toUInt16 reg.y),reg.width,reg.height⟩ :=
    readsBind (readsSmall16 (toUInt16Small _)) (readsBind (readsSmall16 (toUInt16Small _))
      (readsBind (readsSmall16 stored.wide) (readsMap (readsSmall16 stored.high) _)))
  rwa [toInt16OfStored stored.x,toInt16OfStored stored.y] at read

/- Past the type it is the handler that reads. -/
theorem handledIff {msgType : Nat} (small : msgType < 256) {bytes : Bytes} {event : ServerEvent} :
    Reads e.rfbMessage (sendInt8 msgType ++ bytes) event ↔ Reads (e.handler msgType) bytes event := by
  have type := readsInt8 msgType
  rw [Nat.mod_eq_of_lt small] at type
  exact readsBindIff type

theorem supportedIff (pf : LocalFormat) (be : UInt8) :
    (recvPixelFormat ⟨pf.bitsPerPixel,24,be,1,pf.redMax,pf.greenMax,pf.blueMax,pf.redShift,pf.greenShift,
      pf.blueShift⟩ e.stream).isSome = true ↔ pf.Supported := by
  unfold recvPixelFormat
  split
  · rename_i unknown
    exact iff_of_false (by simp) fun supported => by
      rcases supported.bits with same | same | same <;> simp [same] at unknown
  · rename_i bits
    split
    · rename_i zero
      exact iff_of_false (by simp) fun supported => by
        rcases zero with zero | zero | zero | zero
        · cases zero
        · exact supported.red zero
        · exact supported.green zero
        · exact supported.blue zero
    · rename_i some
      push Not at some
      refine iff_of_true rfl ⟨?_,some.2.1,some.2.2.1,some.2.2.2⟩
      tauto

theorem pixelFormatIff (c : ClientSide) (pf : LocalFormat) :
    Reads e.rfbMessage (c.sendPixelFormat pf) ((ClientMessage.pixelFormat pf).fields c) ↔ pf.Supported := by
  have order : Reads recvUInt8 (sendInt8 c.platformBigEndian.toNat)
      (if c.platformBigEndian then 1 else 0) := by
    cases c.platformBigEndian
    · exact readsUInt8 0
    · exact readsUInt8 1
  have depth : Reads recvUInt8 (sendInt8 24) 24 := readsUInt8 24
  have trueColor : Reads recvUInt8 (sendInt8 1) 1 := readsUInt8 1
  rw [ClientSide.sendPixelFormat,handledIff (by decide)]
  change Reads e.recvPixelFormat _ _ ↔ _
  rw [ServerSide.recvPixelFormat,readsBindIff (readsZero 3),readsBindIff (readsUInt8 _),
    readsBindIff depth,readsBindIff order,readsBindIff trueColor,readsBindIff (readsUInt16 _),
    readsBindIff (readsUInt16 _),readsBindIff (readsUInt16 _),readsBindIff (readsUInt8 _),
    readsBindIff (readsUInt8 _),readsBindIff (readsUInt8 _),← List.append_nil (sendZero 3),
    readsBindIff (readsZero 3),← supportedIff (e := e) pf (if c.platformBigEndian then 1 else 0)]
  dsimp only
  cases taken : recvPixelFormat ⟨pf.bitsPerPixel,24,if c.platformBigEndian then 1 else 0,1,
      pf.redMax,pf.greenMax,pf.blueMax,pf.redShift,pf.greenShift,pf.blueShift⟩ e.stream with
  | none => exact iff_of_false (notReadsFail _ _) (by simp)
  | some stream => exact iff_of_true (readsPure _) rfl

theorem encodingsIff (c : ClientSide) (types : List Int32) :
    Reads e.rfbMessage (ClientSide.sendEncodings types) ((ClientMessage.encodings types).fields c) ↔
      types.length < 65536 := by
  rw [ClientSide.sendEncodings,handledIff (by decide)]
  change Reads ServerSide.recvSetEncodings _ _ ↔ _
  have filled (val : Int32) : sendIntBE32 val.toUInt32.toNat ≠ [] :=
    List.ne_nil_of_length_pos (by rw [sendIntBE32,lengthBigEndian]; decide)
  rw [ServerSide.recvSetEncodings,readsBindIff (readsZero 1),readsBindIff (readsIntBE16 _)]
  have read (val : Int32) : Reads _ (sendIntBE32 val.toUInt32.toNat) (id val) := readsInt32 val
  rw [readsManyIff (fun val _ => read val) (fun val _ => filled val) (Nat.mod_le _ _),List.map_id]
  constructor
  · rintro ⟨whole,_⟩
    omega
  · intro few
    exact ⟨Nat.mod_eq_of_lt few,rfl⟩

theorem frameBufferUpdateRead (reg : Area) (incr : Bool) :
    Reads e.rfbMessage (ClientSide.sendFrameBufferUpdate reg incr) (.frameBufferUpdate incr reg) := by
  rw [ClientSide.sendFrameBufferUpdate,handledIff (by decide)]
  exact readsBind (readsFlag incr) (readsMap (readsRegion reg) _)

theorem continuousUpdatesRead (enable : Bool) (reg : Area) :
    Reads e.rfbMessage (ClientSide.sendContinuousUpdates enable reg) (.setContinuousUpdates enable reg) := by
  rw [ClientSide.sendContinuousUpdates,handledIff (by decide)]
  exact readsBind (readsFlag enable) (readsMap (readsRegion reg) _)

theorem pointerRead (buttons : UInt8) (posx posy : UInt16) :
    Reads e.rfbMessage (ClientSide.sendPointerEvent buttons posx posy) (.pointer buttons posx posy) := by
  rw [ClientSide.sendPointerEvent,handledIff (by decide)]
  exact readsBind (readsUInt8 buttons) (readsBind (readsUInt16 posx) (readsMap (readsUInt16 posy) _))

theorem keyEventIff (pressed : Bool) (keysym : UInt32) (scancode : UInt16) :
    Reads e.rfbMessage (ClientSide.sendKeyEvent pressed keysym scancode) (.keyCode pressed keysym scancode) ↔
      e.clientLtsmKeyboard = true ∨ scancode = 0 := by
  rw [ClientSide.sendKeyEvent,handledIff (by decide)]
  change Reads e.recvKeyCode _ _ ↔ _
  cases keyboard : e.clientLtsmKeyboard with
  | true =>
    rw [ServerSide.recvKeyCode,if_pos keyboard]
    exact iff_of_true (readsBind (readsFlag pressed) (readsBind (readsUInt16 scancode)
      (readsMap (readsUInt32 keysym) _))) (.inl rfl)
  | false =>
    have padding : Reads (recvSkip 2) (sendIntBE16 scancode.toNat) () := readsSkip (sendIntBE16 scancode.toNat)
    have read : Reads e.recvKeyCode (sendInt8 pressed.toNat ++ (sendIntBE16 scancode.toNat ++
        sendIntBE32 keysym.toNat)) (.keyCode pressed keysym 0) := by
      rw [ServerSide.recvKeyCode,if_neg (by simp [keyboard])]
      exact readsBind (readsFlag pressed) (readsBind padding (readsMap (readsUInt32 keysym) _))
    constructor
    · intro same
      injection readsUnique same read with _ _ zero
      exact .inr zero
    · rintro (other | rfl)
      · cases other
      · exact read

theorem screenRead (width height : UInt16) :
    Reads ServerSide.recvScreenInfo (sendIntBE32 0 ++ (sendIntBE16 0 ++ (sendIntBE16 0 ++
      (sendIntBE16 width.toNat ++ (sendIntBE16 height.toNat ++ sendIntBE32 0)))))
      ⟨0,⟨0,0,width.toNat,height.toNat⟩,0⟩ := by
  have region : Reads recvRegion (sendIntBE16 0 ++ (sendIntBE16 0 ++ (sendIntBE16 width.toNat ++
      sendIntBE16 height.toNat))) ⟨0,0,width.toNat,height.toNat⟩ :=
    readsBind (readsIntBE16 0) (readsBind (readsIntBE16 0) (readsBind (readsSmall16 width.toNat_lt)
      (readsMap (readsSmall16 height.toNat_lt) _)))
  have whole : Reads ServerSide.recvScreenInfo (sendIntBE32 0 ++ ((sendIntBE16 0 ++ (sendIntBE16 0 ++
      (sendIntBE16 width.toNat ++ sendIntBE16 height.toNat))) ++ sendIntBE32 0))
      ⟨0,⟨0,0,width.toNat,height.toNat⟩,0⟩ :=
    readsBind (readsUInt32 0) (readsBind region (readsMap (readsUInt32 0) _))
  simpa only [List.append_assoc] using whole

theorem screensRead (width height : UInt16) :
    Reads (recvMany ServerSide.recvScreenInfo 1) (sendIntBE32 0 ++ (sendIntBE16 0 ++ (sendIntBE16 0 ++
      (sendIntBE16 width.toNat ++ (sendIntBE16 height.toNat ++ sendIntBE32 0)))))
      [⟨0,⟨0,0,width.toNat,height.toNat⟩,0⟩] := by
  have screens := readsMany fun (item : Unit) (_ : item ∈ [()]) => screenRead width height
  rwa [List.flatMap_singleton] at screens

theorem desktopSizeRead (width height : UInt16) :
    Reads e.rfbMessage (ClientSide.sendSetDesktopSize width height)
      (.setDesktopSize width height [⟨0,⟨0,0,width.toNat,height.toNat⟩,0⟩]) := by
  rw [ClientSide.sendSetDesktopSize,handledIff (by decide)]
  exact readsBind (readsZero 1) (readsBind (readsUInt16 width) (readsBind (readsUInt16 height)
    (readsBind (readsInt8 1) (readsBind (readsZero 1) (readsMap (screensRead width height) _)))))

theorem clientCutTextIff (c : ClientSide) {buf bytes : Bytes} {ext : Bool}
    (sent : sendCutText CLIENT_CUT_TEXT c.extClipboardRemoteCaps buf ext = some bytes) :
    Reads e.rfbMessage bytes (.cutText (cutText buf ext)) ↔
      CutTextWhen (.server e.localExtClipTypeTextSz) e.extClipboardLocalCaps buf ext := by
  unfold sendCutText at sent
  split at sent
  · cases sent
  · cases Option.some.inj sent
    rw [handledIff (by decide),← cutTextIff]
    exact readsMapIff fun _ => ServerEvent.cutText.inj

theorem channelIff {channel : UInt8} {buf bytes : Bytes}
    (sent : sendLtsmChannel channel buf = some bytes) :
    Reads e.rfbMessage bytes (.ltsmProto channel buf) ↔ e.clientLtsmSupported = true := by
  obtain ⟨body,rfl,read⟩ := readsLtsmProto sent
  rw [handledIff (by decide)]
  change Reads (if e.clientLtsmSupported then _ else fail) _ _ ↔ _
  split
  · rename_i supported
    exact iff_of_true (readsMap read _) supported
  · rename_i other
    exact iff_of_false (notReadsFail _ _) other

/- Each handler reads its message whole, with the fields the client has sent, under the
condition of the message. -/
theorem clientMessageIff (c : ClientSide) {msg : ClientMessage} {bytes : Bytes} (sent : c.send msg = some bytes) :
    Reads e.rfbMessage bytes (msg.fields c) ↔ e.ReadsWhen msg := by
  cases msg with
  | cutTextEvent buf ext => exact clientCutTextIff c sent
  | ltsmChannelData channel buf => exact channelIff sent
  | pixelFormat pf =>
    cases Option.some.inj sent
    exact pixelFormatIff c pf
  | encodings types =>
    cases Option.some.inj sent
    exact encodingsIff c types
  | keyEvent pressed keysym scancode =>
    cases Option.some.inj sent
    exact keyEventIff pressed keysym scancode
  | frameBufferUpdate reg incr =>
    cases Option.some.inj sent
    exact iff_of_true (frameBufferUpdateRead reg incr) trivial
  | pointerEvent buttons posx posy =>
    cases Option.some.inj sent
    exact iff_of_true (pointerRead buttons posx posy) trivial
  | continuousUpdates enable reg =>
    cases Option.some.inj sent
    exact iff_of_true (continuousUpdatesRead enable reg) trivial
  | setDesktopSize width height =>
    cases Option.some.inj sent
    exact iff_of_true (desktopSizeRead width height) trivial

end
end Ltsm.ClientMessages
