import Ltsm.ServerMessages

/-! The two ends read each other's messages to the byte. What an end sends depends on its
own state alone, what the other reads of it on the state of that one. -/
namespace Ltsm.MessageFraming
open Library Regions FrameBuffers ZLibBlocks RfbFields ClientMessages ServerMessages

section
variable {z : ZLib}

/- For each message that is sent, in any two states. -/
theorem messagesReadIff (h : z.Lossless) (decode : Nat → Region → Reader Unit) (server : ServerEnd)
    (client : ClientEnd) (sender : ClientSide) (receiver : ServerSide) :
    (∀ (msg : ServerMessage decode) (bytes : Bytes), server.send z msg = some bytes →
      (Reads (client.rfbMessage z decode) bytes (server.fields msg) ↔ client.ReadsWhen z server msg)) ∧
    (∀ (msg : ClientMessage) (bytes : Bytes), sender.send msg = some bytes →
      (Reads receiver.rfbMessage bytes (msg.fields sender) ↔ receiver.ReadsWhen msg)) :=
  ⟨fun _ _ sent => serverMessageIff h sent,fun _ _ sent => clientMessageIff sender sent⟩

end

/-! Two ends that have agreed on cursors of their own. -/

def cursorServer : ServerEnd where
  platformBigEndian := false
  clientEncodings := [0x4C54534D,0x4C54534E]
  clientFormat := ⟨255,255,255,0,16,8,0,0,32⟩
  clientIsBigEndian := false
  colourMap := []
  cursorSended := []
  clientLtsmSupported := true
  extClipboardRemoteCaps := 0

def cursorClient : ClientEnd := ⟨serviceVersion,⟨255,255,255,0,16,8,0,0,32⟩,0⟩
def cursorSender : ClientSide := ⟨false,0⟩
def cursorReceiver : ServerSide :=
  ⟨⟨⟨255,255,255,0,16,8,0,0,32⟩,⟨255,255,255,0,16,8,0,0,32⟩,false,false,⟨640,480⟩⟩,true,true,0,0⟩

def noRects : Nat → Region → Reader Unit := fun _ _ => pure ()

/- A cursor of one pixel, and what zlib makes of it. -/
def onePixel : CursorImage where
  region := ⟨3,4,1,1⟩
  format := ⟨255,255,255,255,16,8,0,24,32⟩
  pixels := fun _ => 0xFF102030
  wide := by decide
  high := by decide

def onePixelBlock : ZLib :=
  ZLib.recorded [0x30,0x20,0x10,0xFF] [0x78,0x9C,0x33,0x50,0x10,0xF8,0x0F,0x00,0x02,0x43,0x01,0x60]

theorem onePixelRead : Reads (cursorClient.rfbMessage onePixelBlock noRects)
    [0,0,0,1,0,0,0,0,0,1,0,1,0x4C,0x54,0x53,0x4E,0x8E,0xE2,0x9C,0x81,0,0,0,4,0,0,0,12,
      0x78,0x9C,0x33,0x50,0x10,0xF8,0x0F,0x00,0x02,0x43,0x01,0x60]
    (.fbUpdate [.ltsmCursor ⟨0,0,1,1⟩ 0x8EE29C81 [0x30,0x20,0x10,0xFF]]) :=
  ((messagesReadIff (ZLib.recordedLossless _ (by decide)) noRects cursorServer cursorClient cursorSender
    cursorReceiver).1 (.richCursor onePixel 0 0) _ (by decide +kernel)).mpr
      ⟨by decide,fun _ _ => ⟨by decide +kernel,by decide +kernel⟩,fun other => by cases other⟩

/- No image at all. -/
def noPixels : CursorImage where
  region := ⟨0,0,0,0⟩
  format := ⟨255,255,255,255,16,8,0,24,32⟩
  pixels := fun _ => 0
  wide := by decide
  high := by decide

/- Two sizes of nothing are sent, and one of them is read. -/
theorem emptyCursorLeft : ∃ bytes, cursorServer.send onePixelBlock
      (.richCursor noPixels 0 0 : ServerMessage noRects) = some bytes ∧
    (cursorClient.rfbMessage onePixelBlock noRects).run bytes =
      some (.fbUpdate [.ltsmCursor ⟨0,0,0,0⟩ 0 []],[0,0,0,0]) ∧
    ¬Reads (cursorClient.rfbMessage onePixelBlock noRects) bytes
      (cursorServer.fields (.richCursor noPixels 0 0 : ServerMessage noRects)) := by
  have left : (cursorClient.rfbMessage onePixelBlock noRects).run
      [0,0,0,1,0,0,0,0,0,0,0,0,0x4C,0x54,0x53,0x4E,0,0,0,0,0,0,0,0,0,0,0,0] =
        some (.fbUpdate [.ltsmCursor ⟨0,0,0,0⟩ 0 []],[0,0,0,0]) := by decide +kernel
  refine ⟨_,by decide +kernel,left,fun all => ?_⟩
  have ran := all []
  rw [List.append_nil,left] at ran
  cases congrArg Prod.snd (Option.some.inj ran)

end Ltsm.MessageFraming
