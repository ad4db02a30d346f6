import Ltsm.Lz4Updates
import Ltsm.BitStreams
import Ltsm.ZLibBlocks
import Ltsm.ClientMessages

/-! The messages of the server and the handlers of the client for them. The data of an
update is left to the decoders, which the handler is given. -/
namespace Ltsm.ServerMessages
open Library PixelFormats PixelStreams Regions UpdateMessages FrameBuffers BitStreams Lz4Updates ZLibBlocks
  QoiRoundTrip CutText RfbFields ClientMessages

def SERVER_FB_UPDATE : Nat := 0
def SERVER_SET_COLOURMAP : Nat := 1
def SERVER_BELL : Nat := 2
def SERVER_CONTINUOUS_UPDATES : Nat := 150

/- Types of rectangles, as the word that is sent. -/
def ENCODING_LTSM : Nat := 0x4C54534D
def ENCODING_LTSM_CURSOR : Nat := 0x4C54534E
def ENCODING_DESKTOP_SIZE : Nat := 4294967296 - 223
def ENCODING_LAST_RECT : Nat := 4294967296 - 224
def ENCODING_RICH_CURSOR : Nat := 4294967296 - 239
def ENCODING_EXT_DESKTOP_SIZE : Nat := 4294967296 - 308

def serviceVersion : UInt32 := 20260610

inductive DesktopResizeStatus
  | serverRuntime | clientSide | otherClient
  deriving DecidableEq, Repr

inductive DesktopResizeError
  | noError | resizeProhibited | outOfResources | invalidScreenLayout
  deriving DecidableEq, Repr

def desktopResizeStatusCode : DesktopResizeStatus → Nat
  | .serverRuntime => 0
  | .clientSide => 1
  | .otherClient => 2

def desktopResizeErrorCode : DesktopResizeError → Nat
  | .noError => 0
  | .resizeProhibited => 1
  | .outOfResources => 2
  | .invalidScreenLayout => 3

def crcBit (crc : UInt32) : UInt32 := (crc >>> 1) ^^^ (if crc &&& 1 = 1 then 0xEDB88320 else 0)

def crc32b (cont : Bytes) : UInt32 :=
  ~~~(cont.foldl (fun crc val => (List.range 8).foldl (fun crc _ => crcBit crc) (crc ^^^ val.toUInt32)) 0xFFFFFFFF)

example : crc32b [0x31,0x32,0x33,0x34,0x35,0x36,0x37,0x38,0x39] = 0xCBF43926 := by decide +kernel

/- The number of zero bits below the lowest one. -/
def countrZero (mask : UInt32) : Nat := ((List.range 32).find? mask.toNat.testBit).getD 32

/- The maxima are kept in sixteen bits. -/
def ofMasks (bpp : Nat) (rmask gmask bmask amask : UInt32) : PixelFormat :=
  let max (mask : UInt32) := (mask >>> UInt32.ofNat (countrZero mask)).toNat % 65536
  ⟨max rmask,max gmask,max bmask,max amask,countrZero rmask,countrZero gmask,countrZero bmask,countrZero amask,bpp⟩

structure CursorImage extends FrameBuffer where
  wide : region.width < 65536
  high : region.height < 65536

namespace CursorImage
variable (fb : CursorImage)

def area : Region := ⟨0,0,fb.region.width,fb.region.height⟩

/- The hot spot stands for the corner. -/
def header (xhot yhot : UInt16) : Region := ⟨xhot.toNat,yhot.toNat,fb.region.width,fb.region.height⟩

def span (be : Bool) : Bytes := memory be fb.toFrameBuffer fb.area

end CursorImage

/- A rectangle of an update, with data that its decoder takes. -/
structure DataRect (decode : Nat → Region → Reader Unit) extends Rect where
  encoding : ∃ enc : Encoding, type = enc.code
  stored : Stored region
  decoded : Reads (decode type region) data ()

inductive ServerMessage (decode : Nat → Region → Reader Unit)
  | colourMap (first : Int)
  | bell
  | cutText (buf : Bytes) (ext : Bool)
  | continuousUpdates
  | frameBufferUpdate (rects : List (DataRect decode))
  | desktopResize (status : DesktopResizeStatus) (error : DesktopResizeError) (width height : UInt16)
  | richCursor (fb : CursorImage) (xhot yhot : UInt16)
  | ltsmSupported
  | ltsmData (buf : Bytes)
  | ltsmChannel (channel : UInt8) (buf : Bytes)

structure ServerEnd where
  platformBigEndian : Bool
  clientEncodings : List Int32
  clientFormat : PixelFormat
  clientIsBigEndian : Bool
  colourMap : List Color
  cursorSended : List UInt32
  clientLtsmSupported : Bool
  extClipboardRemoteCaps : Nat

def sendUpdateHeader (rects : Nat) : Bytes := sendInt8 SERVER_FB_UPDATE ++ (sendInt8 0 ++ sendIntBE16 rects)

namespace ServerEnd
variable (z : ZLib) (s : ServerEnd)

def isClientSupportedEncoding (type : Nat) : Bool := s.clientEncodings.any fun enc => enc.toUInt32.toNat = type

def sendColourMap (first : Int) : Bytes :=
  sendInt8 SERVER_SET_COLOURMAP ++ (sendInt8 0 ++ (sendIntBE16 (toUInt16 first) ++
    (sendIntBE16 s.colourMap.length ++ s.colourMap.flatMap fun col =>
      sendIntBE16 col.r.toNat ++ (sendIntBE16 col.g.toNat ++ sendIntBE16 col.b.toNat))))

def sendDesktopResize (status : DesktopResizeStatus) (error : DesktopResizeError) (width height : UInt16) :
    Option Bytes :=
  if s.isClientSupportedEncoding ENCODING_EXT_DESKTOP_SIZE then
    some (sendUpdateHeader 1 ++ (sendHeader ENCODING_EXT_DESKTOP_SIZE ⟨desktopResizeStatusCode status,
        desktopResizeErrorCode error,width.toNat,height.toNat⟩ ++
      (sendInt8 1 ++ (sendZero 3 ++ (sendIntBE32 0 ++ (sendIntBE16 0 ++ (sendIntBE16 0 ++
        (sendIntBE16 width.toNat ++ (sendIntBE16 height.toNat ++ sendIntBE32 0)))))))))
  else none

def clientFormatAlpha : PixelFormat :=
  let pf := s.clientFormat
  ofMasks pf.bitsPixel pf.rmask pf.gmask pf.bmask (~~~(pf.rmask ||| pf.gmask ||| pf.bmask))

def cursorPixels (fb : CursorImage) : Option (List Bytes) :=
  fb.area.points.mapM fun p =>
    sendPixelRaw (convertPixelFromTo (fb.pixel p) fb.format s.clientFormatAlpha)
      s.clientFormat.bytePerPixel s.clientIsBigEndian

def cursorMask (fb : CursorImage) : Bytes :=
  let solid (ox oy : Nat) := fb.format.alpha (fb.pixel ⟨ox,oy⟩) = fb.format.alphaMax
  ((List.range fb.region.height).foldl (fun sb oy =>
    ((List.range fb.region.width).foldl (fun sb ox => sb.pushBit (solid ox oy)) sb).pushAlign)
      streamBitsPack).toVector

/- An image that has been sent before is only named. -/
def sendLtsmCursor (fb : CursorImage) (xhot yhot : UInt16) : Bytes :=
  let fbSpan := fb.span s.platformBigEndian
  let cursorId := crc32b fbSpan
  sendUpdateHeader 1 ++ (sendHeader ENCODING_LTSM_CURSOR (fb.header xhot yhot) ++
    (sendIntBE32 cursorId.toNat ++
      if cursorId ∈ s.cursorSended then sendIntBE32 0
      else
        let zlib := z.deflateData fbSpan
        sendIntBE32 fbSpan.length ++ (sendIntBE32 zlib.length ++ zlib)))

def sendRichCursor (fb : CursorImage) (xhot yhot : UInt16) : Option Bytes :=
  if s.isClientSupportedEncoding ENCODING_LTSM_CURSOR then some (s.sendLtsmCursor z fb xhot yhot)
  else do
    let pixels ← s.cursorPixels fb
    let bitmaskBuf := cursorMask fb
    if (fb.region.width + 7) / 8 * fb.region.height ≠ bitmaskBuf.length then none
    else some (sendUpdateHeader 1 ++
      (sendHeader ENCODING_RICH_CURSOR (fb.header xhot yhot) ++
        (pixels.flatten ++ bitmaskBuf)))

/- Both have a type of their own after the header, and no region. -/
def sendLtsmSupported : Bytes :=
  sendUpdateHeader 1 ++ (sendHeader ENCODING_LTSM ⟨0,0,0,0⟩ ++ (sendIntBE32 0 ++ sendIntBE32 serviceVersion.toNat))

def sendLtsmData (buf : Bytes) : Bytes :=
  sendUpdateHeader 1 ++ (sendHeader ENCODING_LTSM ⟨0,0,0,0⟩ ++ (sendIntBE32 1 ++ (sendIntBE32 buf.length ++ buf)))

variable {decode : Nat → Region → Reader Unit}

/- `none` where nothing is sent, or an exception cuts the message off. -/
def send : ServerMessage decode → Option Bytes
  | .colourMap first => some (s.sendColourMap first)
  | .bell => some (sendInt8 SERVER_BELL)
  | .cutText buf ext => sendCutText SERVER_CUT_TEXT s.extClipboardRemoteCaps buf ext
  | .continuousUpdates => some (sendInt8 SERVER_CONTINUOUS_UPDATES)
  | .frameBufferUpdate rects => some (sendUpdateHeader rects.length ++ rects.flatMap fun rect => rect.bytes)
  | .desktopResize status error width height => s.sendDesktopResize status error width height
  | .richCursor fb xhot yhot => s.sendRichCursor z fb xhot yhot
  | .ltsmSupported => some sendLtsmSupported
  | .ltsmData buf => some (sendLtsmData buf)
  | .ltsmChannel channel buf => if s.clientLtsmSupported then sendLtsmChannel channel buf else none

end ServerEnd

inductive RectEvent
  | updateRegion (type : Nat) (reg : Region)
  | ltsmHandshake (version : UInt32)
  | ltsmData (buf : Bytes)
  | ltsmCursor (reg : Region) (cursorId : UInt32) (pixels : Bytes)
  | richCursor (reg : Region) (pixels mask : Bytes)
  | extDesktopSize (status err : Int) (width height : Nat) (screens : List ScreenInfo)
  | desktopSize
  deriving DecidableEq, Repr

/- What the client has read of a message. -/
inductive ClientEvent
  | setColorMap (firstColor : Int) (colors : List Color)
  | bell
  | cutText (got : Received)
  | continuousUpdates
  | fbUpdate (rects : List RectEvent)
  | ltsmProto (channel : UInt8) (buf : Bytes)
  deriving DecidableEq, Repr

structure ClientEnd where
  serverLtsmVersion : UInt32
  clientFormat : PixelFormat
  extClipboardLocalCaps : Nat
  deriving DecidableEq, Repr

/- What a reader makes of a buffer that has been received. -/
def readBuf {α : Type} (r : Reader α) (buf : Bytes) : Reader α := ofOption ((r.run buf).map Prod.fst)

def recvColor : Reader Color :=
  recvUInt8 >>= fun r => recvUInt8 >>= fun g => recvUInt8 >>= fun b => pure ⟨r,g,b,0⟩

namespace ClientEnd
variable (z : ZLib) (decode : Nat → Region → Reader Unit) (e : ClientEnd)

def recvColorMapEvent : Reader ClientEvent :=
  recvSkip 1 >>= fun _ => recvIntBE16 >>= fun firstColor => recvIntBE16 >>= fun numColors =>
    takeBytes (numColors * 3) >>= fun buf => readBuf (recvMany recvColor numColors) buf >>= fun colors =>
      pure (.setColorMap firstColor colors)

def recvDecodingLtsm : Reader RectEvent :=
  recvIntBE32 >>= fun type =>
    if type = 0 then recvUInt32 >>= fun version => pure (.ltsmHandshake version)
    else if type = 1 then recvIntBE32 >>= fun len => takeBytes len >>= fun buf => pure (.ltsmData buf)
    else fail

/- zlibUncompress starts from the raw size, and takes more room as long as it needs it. -/
def recvDecodingLtsmCursor (reg : Region) : Reader RectEvent :=
  recvUInt32 >>= fun cursorId => recvIntBE32 >>= fun rawsz =>
    if rawsz ≠ 0 then recvIntBE32 >>= fun zipsz =>
      if zipsz ≠ 0 then takeBytes zipsz >>= fun zip => ofOption (z.inflateData zip) >>= fun buf =>
        pure (.ltsmCursor reg cursorId buf)
      else takeBytes rawsz >>= fun buf => pure (.ltsmCursor reg cursorId buf)
    else pure (.ltsmCursor reg cursorId [])

def recvDecodingRichCursor (reg : Region) : Reader RectEvent :=
  takeBytes (reg.width * reg.height * e.clientFormat.bytePerPixel % 4294967296) >>= fun buf =>
    takeBytes ((reg.width + 7) / 8 * reg.height) >>= fun mask => pure (.richCursor reg buf mask)

def recvDecodingExtDesktopSize (reg : Region) : Reader RectEvent :=
  recvInt8 >>= fun numOfScreens => recvSkip 3 >>= fun _ => takeBytes (numOfScreens * 16) >>= fun buf =>
    readBuf (recvMany ServerSide.recvScreenInfo numOfScreens) buf >>= fun screens =>
      pure (.extDesktopSize reg.x reg.y reg.width reg.height screens)

def recvRegionData (header : Region × Nat) : Reader RectEvent :=
  if header.2 = ENCODING_LTSM then recvDecodingLtsm
  else if header.2 = ENCODING_LAST_RECT then fail
  else if header.2 = ENCODING_LTSM_CURSOR then recvDecodingLtsmCursor z header.1
  else if header.2 = ENCODING_RICH_CURSOR then e.recvDecodingRichCursor header.1
  else if header.2 = ENCODING_EXT_DESKTOP_SIZE then recvDecodingExtDesktopSize header.1
  else if header.2 = ENCODING_DESKTOP_SIZE then pure .desktopSize
  else decode header.2 header.1 >>= fun _ => pure (.updateRegion header.2 header.1)

def recvFBUpdateRegion : Reader RectEvent := recvHeader >>= e.recvRegionData z decode

def recvFBUpdateEvent : Reader ClientEvent :=
  recvSkip 1 >>= fun _ => recvIntBE16 >>= fun numRects =>
    recvMany (e.recvFBUpdateRegion z decode) numRects >>= fun rects => pure (.fbUpdate rects)

/- The handler for a type; other types end the session. -/
def handler (msgType : Nat) : Reader ClientEvent :=
  if msgType = PROTOCOL_LTSM then
    if e.serverLtsmVersion = 0 then fail
    else recvLtsmProto >>= fun data => pure (.ltsmProto data.1 data.2)
  else if msgType = SERVER_FB_UPDATE then e.recvFBUpdateEvent z decode
  else if msgType = SERVER_SET_COLOURMAP then recvColorMapEvent
  else if msgType = SERVER_BELL then pure .bell
  else if msgType = SERVER_CUT_TEXT then
    recvCutTextEvent e.extClipboardLocalCaps >>= fun got => pure (.cutText got)
  else if msgType = SERVER_CONTINUOUS_UPDATES then pure .continuousUpdates
  else fail

def rfbMessage : Reader ClientEvent := recvInt8 >>= e.handler z decode

end ClientEnd

/-! What the server has sent, and when the client reads it so. -/

namespace ServerEnd
variable (z : ZLib) (s : ServerEnd) {decode : Nat → Region → Reader Unit}

/- The image is empty where it is only named. -/
def cursorFields (fb : CursorImage) (xhot yhot : UInt16) : RectEvent :=
  let fbSpan := fb.span s.platformBigEndian
  if s.isClientSupportedEncoding ENCODING_LTSM_CURSOR then
    .ltsmCursor (fb.header xhot yhot) (crc32b fbSpan) (if crc32b fbSpan ∈ s.cursorSended then [] else fbSpan)
  else .richCursor (fb.header xhot yhot) ((s.cursorPixels fb).getD []).flatten (cursorMask fb)

def fields : ServerMessage decode → ClientEvent
  | .colourMap first => .setColorMap first s.colourMap
  | .bell => .bell
  | .cutText buf ext => .cutText (cutText buf ext)
  | .continuousUpdates => .continuousUpdates
  | .frameBufferUpdate rects => .fbUpdate (rects.map fun rect => .updateRegion rect.type rect.region)
  | .desktopResize status error width height =>
    .fbUpdate [.extDesktopSize (desktopResizeStatusCode status) (desktopResizeErrorCode error) width.toNat
      height.toNat [⟨0,⟨0,0,width.toNat,height.toNat⟩,0⟩]]
  | .richCursor fb xhot yhot => .fbUpdate [s.cursorFields fb xhot yhot]
  | .ltsmSupported => .fbUpdate [.ltsmHandshake serviceVersion]
  | .ltsmData buf => .fbUpdate [.ltsmData buf]
  | .ltsmChannel channel buf => .ltsmProto channel buf

end ServerEnd

/- Sizes that thirty-two bits tell, and something to tell them of. -/
structure ImageTold (z : ZLib) (image : Bytes) : Prop where
  raw : image.length % 4294967296 ≠ 0
  zip : (z.deflateData image).length < 4294967296

structure CursorWhen (z : ZLib) (e : ClientEnd) (s : ServerEnd) (fb : CursorImage) (xhot yhot : UInt16) : Prop where
  hot : xhot.toNat < 32768 ∧ yhot.toNat < 32768
  image : s.isClientSupportedEncoding ENCODING_LTSM_CURSOR = true →
    crc32b (fb.span s.platformBigEndian) ∉ s.cursorSended → ImageTold z (fb.span s.platformBigEndian)
  pixels : s.isClientSupportedEncoding ENCODING_LTSM_CURSOR = false →
    fb.area.area * e.clientFormat.bytePerPixel % 4294967296 = fb.area.area * s.clientFormat.bytePerPixel

def ClientEnd.ReadsWhen (z : ZLib) (e : ClientEnd) (s : ServerEnd) {decode : Nat → Region → Reader Unit} :
    ServerMessage decode → Prop
  | .colourMap first => s.colourMap = [] ∧ 0 ≤ first ∧ first < 65536
  | .cutText buf ext => CutTextWhen .client e.extClipboardLocalCaps buf ext
  | .frameBufferUpdate rects => rects.length < 65536
  | .richCursor fb xhot yhot => CursorWhen z e s fb xhot yhot
  | .ltsmData buf => buf.length < 4294967296
  | .ltsmChannel _ _ => e.serverLtsmVersion ≠ 0
  | _ => True

section
variable {z : ZLib} {e : ClientEnd} {s : ServerEnd} {decode : Nat → Region → Reader Unit}

/- Past the type it is the handler that reads. -/
theorem handlerIff {msgType : Nat} (small : msgType < 256) {bytes : Bytes} {event : ClientEvent} :
    Reads (e.rfbMessage z decode) (sendInt8 msgType ++ bytes) event ↔
      Reads (e.handler z decode msgType) bytes event := by
  have type := readsInt8 msgType
  rw [Nat.mod_eq_of_lt small] at type
  exact readsBindIff type

theorem bellRead : Reads (e.rfbMessage z decode) (sendInt8 SERVER_BELL) .bell := by
  rw [← List.append_nil (sendInt8 SERVER_BELL),handlerIff (by decide)]
  exact readsPure _

theorem continuousUpdatesNamed :
    Reads (e.rfbMessage z decode) (sendInt8 SERVER_CONTINUOUS_UPDATES) .continuousUpdates := by
  rw [← List.append_nil (sendInt8 SERVER_CONTINUOUS_UPDATES),handlerIff (by decide)]
  exact readsPure _

theorem serverCutTextIff {buf bytes : Bytes} {ext : Bool}
    (sent : sendCutText SERVER_CUT_TEXT s.extClipboardRemoteCaps buf ext = some bytes) :
    Reads (e.rfbMessage z decode) bytes (.cutText (cutText buf ext)) ↔
      CutTextWhen .client e.extClipboardLocalCaps buf ext := by
  unfold sendCutText at sent
  split at sent
  · cases sent
  · cases Option.some.inj sent
    rw [handlerIff (by decide),← cutTextIff]
    exact readsMapIff fun _ => ClientEvent.cutText.inj

theorem serverChannelIff {channel : UInt8} {buf bytes : Bytes} (sent : sendLtsmChannel channel buf = some bytes) :
    Reads (e.rfbMessage z decode) bytes (.ltsmProto channel buf) ↔ e.serverLtsmVersion ≠ 0 := by
  obtain ⟨body,rfl,read⟩ := readsLtsmProto sent
  rw [handlerIff (by decide)]
  change Reads (if e.serverLtsmVersion = 0 then fail else _) _ _ ↔ _
  split
  · rename_i unknown
    exact iff_of_false (notReadsFail _ _) (not_not.mpr unknown)
  · rename_i known
    exact iff_of_true (readsMap read _) known

theorem lengthColours (colours : List Color) : (colours.flatMap fun col =>
    sendIntBE16 col.r.toNat ++ (sendIntBE16 col.g.toNat ++ sendIntBE16 col.b.toNat)).length = colours.length * 6 := by
  rw [List.length_flatMap]
  simp [sendIntBE16]

/- A buffer of the size that is read of it. -/
theorem readsBuffer {α β : Type} {r : Reader α} {bytes : Bytes} {a : α} (read : Reads r bytes a) {size : Nat}
    (sized : bytes.length = size) (f : α → β) :
    Reads (takeBytes size >>= fun buf => readBuf r buf >>= fun a => pure (f a)) bytes (f a) := by
  subst sized
  have ran := read []
  rw [List.append_nil] at ran
  have whole : Reads (readBuf r bytes) [] a := by
    rw [readBuf,ran]
    exact readsOption a
  have both := readsBind (f := fun buf => readBuf r buf >>= fun a => pure (f a)) (readsTake bytes) (readsMap whole f)
  rwa [List.append_nil] at both

theorem padded : Reads (recvSkip 1) (sendInt8 0) () := readsZero 1

/- Six bytes are sent of a colour and three of them read. -/
theorem colourMapIff (first : Int) :
    Reads (e.rfbMessage z decode) (s.sendColourMap first) (.setColorMap first s.colourMap) ↔
      s.colourMap = [] ∧ 0 ≤ first ∧ first < 65536 := by
  rw [ServerEnd.sendColourMap,handlerIff (by decide)]
  change Reads ClientEnd.recvColorMapEvent _ _ ↔ _
  rw [ClientEnd.recvColorMapEvent,readsBindIff padded,readsBindIff (readsSmall16 (toUInt16Small first)),
    readsBindIff (readsIntBE16 _),readsTakeIff (by rw [lengthColours]; omega),readBuf,readsOptionIff]
  constructor
  · rintro ⟨colors,_,rest⟩
    obtain ⟨whole,same⟩ := readsPureIff.mp rest
    obtain ⟨kept,_⟩ := ClientEvent.setColorMap.inj same
    rw [List.drop_eq_nil_iff,lengthColours] at whole
    have small := toUInt16Small first
    exact ⟨List.eq_nil_of_length_eq_zero (by omega),by omega,by omega⟩
  · rintro ⟨none,low,high⟩
    have kept : (toUInt16 first : Int) = first := by
      unfold toUInt16
      omega
    rw [none,kept]
    exact ⟨[],rfl,readsPure _⟩

/-! Updates of one rectangle. -/

/- The corner comes back from sixteen bits. -/
def received (reg : Region) : Region := ⟨toInt16 (toUInt16 reg.x),toInt16 (toUInt16 reg.y),reg.width,reg.height⟩

theorem receivedSize (x y : Int) (width height : Nat) :
    (received ⟨x,y,width,height⟩).toSize = ⟨width,height⟩ := rfl

theorem headerRead {type : Nat} {reg : Region} (small : type < 4294967296) (wide : reg.width < 65536)
    (high : reg.height < 65536) : Reads recvHeader (sendHeader type reg) (received reg,type) :=
  readsBind (readsSmall16 (toUInt16Small _)) (readsBind (readsSmall16 (toUInt16Small _))
    (readsBind (readsSmall16 wide) (readsBind (readsSmall16 high) (readsMap (readsSmall32 small) _))))

theorem singleIff {type : Nat} {reg : Region} {data : Bytes} {event : RectEvent} (small : type < 4294967296)
    (wide : reg.width < 65536) (high : reg.height < 65536) :
    Reads (e.rfbMessage z decode) (sendUpdateHeader 1 ++ (sendHeader type reg ++ data)) (.fbUpdate [event]) ↔
      Reads (e.recvRegionData z decode (received reg,type)) data event := by
  have one : recvMany (e.recvFBUpdateRegion z decode) 1 >>= (fun rects => pure (ClientEvent.fbUpdate rects)) =
      e.recvFBUpdateRegion z decode >>= fun rect => pure (ClientEvent.fbUpdate [rect]) := by
    simp [recvMany]
  have single : ∀ other, ClientEvent.fbUpdate [other] = ClientEvent.fbUpdate [event] → other = event := by
    intro other same
    simpa using same
  rw [sendUpdateHeader,List.append_assoc,List.append_assoc,handlerIff (by decide)]
  change Reads (e.recvFBUpdateEvent z decode) _ _ ↔ _
  rw [ClientEnd.recvFBUpdateEvent,readsBindIff padded,readsBindIff (readsSmall16 (by decide)),one,
    readsMapIff single,ClientEnd.recvFBUpdateRegion,readsBindIff (headerRead small wide high)]

theorem ltsmSupportedRead :
    Reads (e.rfbMessage z decode) ServerEnd.sendLtsmSupported (.fbUpdate [.ltsmHandshake serviceVersion]) := by
  rw [ServerEnd.sendLtsmSupported,singleIff (by decide) (by decide) (by decide)]
  exact readsBind (readsIntBE32 0) (readsMap (readsUInt32 serviceVersion) _)

theorem ltsmDataIff (buf : Bytes) :
    Reads (e.rfbMessage z decode) (ServerEnd.sendLtsmData buf) (.fbUpdate [.ltsmData buf]) ↔
      buf.length < 4294967296 := by
  rw [ServerEnd.sendLtsmData,singleIff (by decide) (by decide) (by decide)]
  change Reads ClientEnd.recvDecodingLtsm _ _ ↔ _
  rw [ClientEnd.recvDecodingLtsm,readsBindIff (readsIntBE32 1),if_neg (by decide),if_pos (by decide),
    readsBindIff (readsIntBE32 _),readsRestIff]
  constructor
  · rintro ⟨whole,_⟩
    omega
  · intro small
    exact ⟨Nat.mod_eq_of_lt small,rfl⟩

theorem statusSmall (status : DesktopResizeStatus) : desktopResizeStatusCode status < 3 := by
  cases status <;> decide

theorem errorSmall (error : DesktopResizeError) : desktopResizeErrorCode error < 4 := by
  cases error <;> decide

/- A small number is what comes back. -/
theorem sameSmall {value : Nat} (small : value < 32768) : toInt16 (toUInt16 value) = value :=
  toInt16OfStored (toInt16Fits (by omega) (by omega))

theorem desktopResizeRead {status : DesktopResizeStatus} {error : DesktopResizeError} {width height : UInt16}
    {bytes : Bytes} (sent : s.sendDesktopResize status error width height = some bytes) :
    Reads (e.rfbMessage z decode) bytes (.fbUpdate [.extDesktopSize (desktopResizeStatusCode status)
      (desktopResizeErrorCode error) width.toNat height.toNat [⟨0,⟨0,0,width.toNat,height.toNat⟩,0⟩]]) := by
  unfold ServerEnd.sendDesktopResize at sent
  split at sent
  · cases Option.some.inj sent
    have statusCode := statusSmall status
    have errorCode := errorSmall error
    rw [singleIff (by decide) width.toNat_lt height.toNat_lt,received,sameSmall (by omega),sameSmall (by omega)]
    change Reads (ClientEnd.recvDecodingExtDesktopSize _) _ _
    exact readsBind (readsInt8 1) (readsBind (readsZero 3)
      (readsBuffer (screensRead width height) (by simp [sendIntBE16,sendIntBE32]) _))
  · cases sent

/-! Cursors. -/

theorem sameIff (hot : UInt16) : toInt16 (toUInt16 hot.toNat) = hot.toNat ↔ hot.toNat < 32768 := by
  constructor
  · intro same
    have below := Int.bmod_lt (x := (toUInt16 hot.toNat : Int)) (m := 65536) (by decide)
    unfold toInt16 at same
    omega
  · intro small
    exact sameSmall small

theorem hotIff (fb : CursorImage) (xhot yhot : UInt16) :
    received (fb.header xhot yhot) = fb.header xhot yhot ↔ xhot.toNat < 32768 ∧ yhot.toNat < 32768 := by
  rw [← sameIff xhot,← sameIff yhot,received,CursorImage.header,Region.mk.injEq]
  exact ⟨fun all => ⟨all.1,all.2.1⟩,fun all => ⟨all.1,all.2,rfl,rfl⟩⟩

/- What follows the name of an image that has not been sent before. -/
theorem imageIff (h : z.Lossless) {reg told : Region} (cursorId : UInt32) (image : Bytes) :
    Reads (ClientEnd.recvDecodingLtsmCursor z reg) (sendIntBE32 cursorId.toNat ++ (sendIntBE32 image.length ++
      (sendIntBE32 (z.deflateData image).length ++ z.deflateData image))) (.ltsmCursor told cursorId image) ↔
      reg = told ∧ ImageTold z image := by
  rw [ClientEnd.recvDecodingLtsmCursor,readsBindIff (readsUInt32 cursorId),readsBindIff (readsIntBE32 _)]
  by_cases raw : image.length % 4294967296 = 0
  · rw [if_neg (not_not.mpr raw),readsPureIff]
    refine iff_of_false (fun all => ?_) fun all => all.2.raw raw
    have none := congrArg List.length all.1
    simp [sendIntBE32] at none
  have filled : z.deflateData image ≠ [] := by
    intro empty
    rw [ZLib.deflateEmpty h] at empty
    subst empty
    exact raw rfl
  have some := List.length_pos_iff.mpr filled
  rw [if_pos raw,readsBindIff (readsIntBE32 _)]
  by_cases small : (z.deflateData image).length < 4294967296
  · rw [Nat.mod_eq_of_lt small,if_pos (by omega),readsTakeIff (Nat.le_refl _),List.take_length,List.drop_length,
      ZLib.inflateDeflate h,readsOptionIff]
    constructor
    · rintro ⟨buf,_,rest⟩
      injection (readsPureIff.mp rest).2 with same
      exact ⟨same,raw,small⟩
    · rintro ⟨rfl,_⟩
      exact ⟨image,rfl,readsPure _⟩
  · refine iff_of_false (fun all => ?_) fun all => small all.2.zip
    split at all
    · rw [readsTakeIff (Nat.mod_le _ _),readsOptionIff] at all
      obtain ⟨_,_,rest⟩ := all
      have none := (readsPureIff.mp rest).1
      rw [List.drop_eq_nil_iff] at none
      omega
    · have whole := (readsRestIff.mp all).1
      omega

theorem ltsmCursorIff (h : z.Lossless) (fb : CursorImage) (xhot yhot : UInt16) :
    Reads (e.rfbMessage z decode) (s.sendLtsmCursor z fb xhot yhot)
      (.fbUpdate [.ltsmCursor (fb.header xhot yhot) (crc32b (fb.span s.platformBigEndian))
        (if crc32b (fb.span s.platformBigEndian) ∈ s.cursorSended then [] else fb.span s.platformBigEndian)]) ↔
      (xhot.toNat < 32768 ∧ yhot.toNat < 32768) ∧
        (crc32b (fb.span s.platformBigEndian) ∉ s.cursorSended → ImageTold z (fb.span s.platformBigEndian)) := by
  have wide : (fb.header xhot yhot).width < 65536 := fb.wide
  have high : (fb.header xhot yhot).height < 65536 := fb.high
  rw [← hotIff fb,ServerEnd.sendLtsmCursor,singleIff (by decide) wide high]
  change Reads (ClientEnd.recvDecodingLtsmCursor z _) _ _ ↔ _
  split
  · rename_i named
    rw [ClientEnd.recvDecodingLtsmCursor,readsBindIff (readsUInt32 _),← List.append_nil (sendIntBE32 0),
      readsBindIff (readsIntBE32 0),if_neg (by decide),readsPureIff,RectEvent.ltsmCursor.injEq]
    tauto
  · rename_i fresh
    rw [imageIff h]
    tauto

theorem lengthPixelRaw {pixel : UInt32} {bpp : Nat} {be : Bool} {bytes : Bytes}
    (sent : sendPixelRaw pixel bpp be = some bytes) : bytes.length = bpp := by
  unfold sendPixelRaw at sent
  split at sent
  · cases Option.some.inj sent
    exact lengthWordBytes be pixel
  · cases Option.some.inj sent
    cases be <;> simp
  · cases Option.some.inj sent
    rfl
  · cases sent

theorem lengthCursorPixels {fb : CursorImage} {pixels : List Bytes} (made : s.cursorPixels fb = some pixels) :
    pixels.flatten.length = fb.area.area * s.clientFormat.bytePerPixel := by
  have each := mapMForall made
  clear made
  rw [← lengthPoints]
  generalize fb.area.points = points at each
  induction each with
  | nil => simp
  | cons first _ ih =>
    rw [List.flatten_cons,List.length_append,lengthPixelRaw first,ih,List.length_cons]
    ring

theorem maskedIff {reg told : Region} {buf mask : Bytes} (masked : (reg.width + 7) / 8 * reg.height = mask.length) :
    Reads (e.recvDecodingRichCursor reg) (buf ++ mask) (.richCursor told buf mask) ↔
      reg = told ∧ reg.width * reg.height * e.clientFormat.bytePerPixel % 4294967296 = buf.length := by
  rw [ClientEnd.recvDecodingRichCursor,masked]
  generalize reg.width * reg.height * e.clientFormat.bytePerPixel % 4294967296 = size
  by_cases same : size = buf.length
  · rw [same,readsBindIff (readsTake buf),readsRestIff,RectEvent.richCursor.injEq]
    exact ⟨fun all => ⟨all.2.1,rfl⟩,fun all => ⟨rfl,all.1,rfl,rfl⟩⟩
  · refine iff_of_false (fun all => ?_) fun all => same all.2
    rcases Nat.lt_or_ge (buf ++ mask).length size with short | enough
    · exact notReadsShort short all
    · rw [readsTakeIff enough,readsRestIff,List.length_drop,List.length_append] at all
      rw [List.length_append] at enough
      omega

theorem richCursorIff {fb : CursorImage} {xhot yhot : UInt16} {pixels : List Bytes}
    (made : s.cursorPixels fb = some pixels)
    (mask : (fb.region.width + 7) / 8 * fb.region.height = (ServerEnd.cursorMask fb).length) :
    Reads (e.rfbMessage z decode) (sendUpdateHeader 1 ++ (sendHeader ENCODING_RICH_CURSOR (fb.header xhot yhot) ++
      (pixels.flatten ++ ServerEnd.cursorMask fb)))
      (.fbUpdate [.richCursor (fb.header xhot yhot) pixels.flatten (ServerEnd.cursorMask fb)]) ↔
      (xhot.toNat < 32768 ∧ yhot.toNat < 32768) ∧
        fb.area.area * e.clientFormat.bytePerPixel % 4294967296 = fb.area.area * s.clientFormat.bytePerPixel := by
  have wide : (fb.header xhot yhot).width < 65536 := fb.wide
  have high : (fb.header xhot yhot).height < 65536 := fb.high
  obtain ⟨width,height⟩ := Size.mk.inj (receivedSize xhot.toNat yhot.toNat fb.region.width fb.region.height)
  rw [← CursorImage.header] at width height
  have area : (received (fb.header xhot yhot)).width * (received (fb.header xhot yhot)).height = fb.area.area := by
    rw [width,height]
    rfl
  rw [← width,← height] at mask
  rw [← hotIff fb,singleIff (by decide) wide high,← lengthCursorPixels made,← area]
  exact maskedIff mask

/-! Updates of pixels. -/

theorem codeData (enc : Encoding) : enc.code ≠ ENCODING_LTSM ∧ enc.code ≠ ENCODING_LAST_RECT ∧
    enc.code ≠ ENCODING_LTSM_CURSOR ∧ enc.code ≠ ENCODING_RICH_CURSOR ∧ enc.code ≠ ENCODING_EXT_DESKTOP_SIZE ∧
    enc.code ≠ ENCODING_DESKTOP_SIZE := by
  cases enc <;> decide

theorem dataRead (rect : DataRect decode) :
    Reads (e.recvFBUpdateRegion z decode) rect.bytes (.updateRegion rect.type rect.region) := by
  obtain ⟨enc,typed⟩ := rect.encoding
  have small : rect.type < 4294967296 := typed ▸ codeSmall enc
  obtain ⟨ltsm,last,ltsmCursor,richCursor,extSize,size⟩ := typed ▸ codeData enc
  rw [Rect.bytes,ClientEnd.recvFBUpdateRegion,readsBindIff (readsHeader rect.stored small)]
  unfold ClientEnd.recvRegionData
  dsimp only
  rw [if_neg ltsm,if_neg last,if_neg ltsmCursor,if_neg richCursor,if_neg extSize,if_neg size]
  exact readsMap rect.decoded fun _ => RectEvent.updateRegion rect.type rect.region

theorem updateIff (rects : List (DataRect decode)) :
    Reads (e.rfbMessage z decode) (sendUpdateHeader rects.length ++ rects.flatMap fun rect => rect.bytes)
      (.fbUpdate (rects.map fun rect => .updateRegion rect.type rect.region)) ↔ rects.length < 65536 := by
  have filled (rect : DataRect decode) : rect.bytes ≠ [] :=
    List.ne_nil_of_length_pos (by simp [Rect.bytes,sendHeader,sendIntBE16])
  rw [sendUpdateHeader,List.append_assoc,List.append_assoc,handlerIff (by decide)]
  change Reads (e.recvFBUpdateEvent z decode) _ _ ↔ _
  rw [ClientEnd.recvFBUpdateEvent,readsBindIff padded,readsBindIff (readsIntBE16 _),
    readsManyIff (fun rect _ => dataRead rect) (fun rect _ => filled rect) (Nat.mod_le _ _)]
  constructor
  · rintro ⟨whole,_⟩
    omega
  · intro few
    exact ⟨Nat.mod_eq_of_lt few,rfl⟩

/- Each handler reads its message whole, with the fields the server has sent, under the
condition of the message. -/
theorem serverMessageIff (h : z.Lossless) {msg : ServerMessage decode} {bytes : Bytes}
    (sent : s.send z msg = some bytes) :
    Reads (e.rfbMessage z decode) bytes (s.fields msg) ↔ e.ReadsWhen z s msg := by
  cases msg with
  | cutText buf ext => exact serverCutTextIff sent
  | desktopResize status error width height => exact iff_of_true (desktopResizeRead sent) trivial
  | colourMap first =>
    cases Option.some.inj sent
    exact colourMapIff first
  | bell =>
    cases Option.some.inj sent
    exact iff_of_true bellRead trivial
  | continuousUpdates =>
    cases Option.some.inj sent
    exact iff_of_true continuousUpdatesNamed trivial
  | frameBufferUpdate rects =>
    cases Option.some.inj sent
    exact updateIff rects
  | ltsmSupported =>
    cases Option.some.inj sent
    exact iff_of_true ltsmSupportedRead trivial
  | ltsmData buf =>
    cases Option.some.inj sent
    exact ltsmDataIff buf
  | ltsmChannel channel buf =>
    simp only [ServerEnd.send] at sent
    split at sent
    · exact serverChannelIff sent
    · cases sent
  | richCursor fb xhot yhot =>
    have cursor : CursorWhen z e s fb xhot yhot ↔ _ := ⟨fun c => (⟨c.hot,c.image,c.pixels⟩ : _ ∧ _ ∧ _),
      fun c => ⟨c.1,c.2.1,c.2.2⟩⟩
    change s.sendRichCursor z fb xhot yhot = some bytes at sent
    change Reads _ _ (ClientEvent.fbUpdate [s.cursorFields fb xhot yhot]) ↔ CursorWhen z e s fb xhot yhot
    rw [cursor]
    unfold ServerEnd.sendRichCursor at sent
    unfold ServerEnd.cursorFields
    cases supported : s.isClientSupportedEncoding ENCODING_LTSM_CURSOR with
    | true =>
      rw [if_pos supported] at sent
      cases Option.some.inj sent
      dsimp only
      rw [if_pos rfl,ltsmCursorIff h]
      simp
    | false =>
      rw [if_neg (by simp [supported])] at sent
      obtain ⟨pixels,made,last⟩ := Option.bind_eq_some_iff.mp sent
      dsimp only at last
      split at last
      · cases last
      · rename_i mask
        cases Option.some.inj last
        dsimp only
        rw [if_neg Bool.false_ne_true,made,Option.getD_some,richCursorIff made (not_not.mp mask)]
        simp

end
end Ltsm.ServerMessages
