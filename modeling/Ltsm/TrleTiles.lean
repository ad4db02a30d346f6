import Ltsm.BitStreams
import Ltsm.CompressedPixels
import Ltsm.FrameBuffers
import Ltsm.Library.Runs

/-! What TRLE and ZRLE send of a tile, and how it is read. A tile is of one colour, a
palette with packed indices, runs of pixels, runs of palette indices, or raw; the
sizes of the last three are estimated and the smallest is taken. -/
namespace Ltsm.TrleTiles
open Library Regions PixelFormats PixelStreams UpdateMessages FrameBuffers CompressedPixels BitStreams

/-! Runs of pixels. -/

def pixelsOf (fb : FrameBuffer) (reg : Region) : List UInt32 := reg.points.map fb.pixel

/- Blocks of rows are run through on their own, so a run may be cut between them. -/
def toRLE (fb : FrameBuffer) (cpu : Machine) (reg : Region) : Option (List (UInt32 × Nat)) :=
  if cpu.splits reg then do
    let blocks ← reg.divideBlocks (FrameBuffer.quarter reg)
    some (blocks.flatMap fun block => runsOf (pixelsOf fb block))
  else some (runsOf (pixelsOf fb reg))

def runLengthBytes (length : Nat) : Bytes :=
  if 255 < length then sendInt8 255 ++ runLengthBytes (length - 255)
  else sendInt8 ((length - 1) % 255)
termination_by length

def sendRunLength (length : Nat) : Option Bytes := if length = 0 then none else some (runLengthBytes length)

/-! The encoder. -/

def sendCPixels (st : EncoderStream) (pixels : List UInt32) : Option Bytes := do
  let bytes ← pixels.mapM st.sendCPixel
  some bytes.flatten

def findColorIndex (pal : List (UInt32 × Nat)) (col : UInt32) : Option Nat :=
  (pal.find? fun pair => pair.1 == col).map Prod.snd

def packLine (fb : FrameBuffer) (field : Nat) (pal : List (UInt32 × Nat)) (sb : StreamBits)
    (line : List Point) : Option StreamBits := do
  let indices ← line.mapM fun p => findColorIndex pal (fb.pixel p)
  some (indices.foldl (fun sb index => sb.pushValue index field) sb).pushAlign

def sendRegionPacked (st : EncoderStream) (fb : FrameBuffer) (reg : Region) (field : Nat)
    (pal : List (UInt32 × Nat)) : Option Bytes := do
  let colors ← sendCPixels st (pal.map Prod.fst)
  let sb ← (List.range reg.height).foldlM (fun sb py => packLine fb field pal sb (reg.line py)) streamBitsPack
  some (sendInt8 pal.length ++ (colors ++ sb.toVector))

def sendPlainRun (st : EncoderStream) (run : UInt32 × Nat) : Option Bytes := do
  let pixel ← st.sendCPixel run.1
  let length ← sendRunLength run.2
  some (pixel ++ length)

def sendRegionPlain (st : EncoderStream) (rle : List (UInt32 × Nat)) : Option Bytes := do
  let runs ← rle.mapM (sendPlainRun st)
  some (sendInt8 128 ++ runs.flatten)

def sendPaletteRun (pal : List (UInt32 × Nat)) (run : UInt32 × Nat) : Option Bytes := do
  let index ← findColorIndex pal run.1
  if run.2 = 1 then some (sendInt8 index)
  else
    let length ← sendRunLength run.2
    some (sendInt8 (index + 128) ++ length)

def sendRegionPalette (st : EncoderStream) (pal rle : List (UInt32 × Nat)) : Option Bytes := do
  let colors ← sendCPixels st (pal.map Prod.fst)
  let runs ← rle.mapM (sendPaletteRun pal)
  some (sendInt8 (pal.length + 128) ++ (colors ++ runs.flatten))

def sendRegionRaw (st : EncoderStream) (fb : FrameBuffer) (reg : Region) : Option Bytes := do
  let pixels ← sendCPixels st (pixelsOf fb reg)
  some (sendInt8 0 ++ pixels)

def sendSolid (st : EncoderStream) (back : UInt32) : Option Bytes := do
  let pixel ← st.sendCPixel back
  some (sendInt8 1 ++ pixel)

def fieldWidth (size : Nat) : Nat := if 4 < size then 4 else if 2 < size then 2 else 1

def rlePlainLength (rle : List (UInt32 × Nat)) : Nat :=
  rle.foldl (fun v run => v + 3 + (run.2 - 1) / 255 + 1) 1

def rlePaletteLength (pal rle : List (UInt32 × Nat)) : Nat :=
  if 1 < rle.length ∧ rle.length < 128 then
    rle.foldl (fun v run => v + 1 + (run.2 - 1) / 255 + 1) (1 + 3 * pal.length)
  else 0xFFFF

def sendRegionRuns (st : EncoderStream) (fb : FrameBuffer) (reg : Region) (pal rle : List (UInt32 × Nat)) :
    Option Bytes :=
  let rawLength := 1 + 3 * reg.width * reg.height
  if rlePlainLength rle < rlePaletteLength pal rle ∧ rlePlainLength rle < rawLength then
    sendRegionPlain st rle
  else if rlePaletteLength pal rle < rlePlainLength rle ∧ rlePaletteLength pal rle < rawLength then
    sendRegionPalette st pal rle
  else sendRegionRaw st fb reg

def sendRegion (st : EncoderStream) (cpu : Machine) (fb : FrameBuffer) (reg : Region) : Option Bytes := do
  let map ← fb.pixelMapPalette cpu reg
  if map.length = 1 then sendSolid st (fb.pixel reg.topLeft)
  else if 2 ≤ map.length ∧ map.length ≤ 16 then sendRegionPacked st fb reg (fieldWidth map.length) map
  else
    let rleList ← toRLE fb cpu reg
    sendRegionRuns st fb reg map rleList

/-! The decoder. -/

/- Chunks of 255 and a last one below; the sum is a uint32_t, which a sender of enough
chunks brings back to nothing. -/
def runLengthFrom (length : Nat) : Bytes → Option (Nat × Bytes)
  | [] => none
  | val :: rest =>
    if val = 255 then runLengthFrom (length + 255) rest
    else some ((length + val.toNat + 1) % 4294967296,rest)

def recvRunLength : Reader Nat := runLengthFrom 0

/- The pixel goes to the next points; they must not run out before the run does. -/
def fillRun (pixel : UInt32) : Nat → List Point → Screen → Option (List Point × Screen)
  | 0, points, s => some (points,s)
  | _ + 1, [], _ => none
  | run + 1, p :: rest, s => fillRun pixel run rest (setPixel p pixel s)

def unpackLine (palette : List UInt32) (field : Nat) : List Point → StreamBits → Screen → Option Screen
  | [], _, s => some s
  | p :: rest, sb, s => do
    let (index,sb) ← sb.popValue field
    let pixel ← palette[index]?
    unpackLine palette field rest sb (setPixel p pixel s)

/- The coordinates of a point of a tile are stored before it is set. -/
def storedPoint (p : Point) : Point := ⟨toInt16 p.x,toInt16 p.y⟩

def remaining : Reader Nat := fun bytes => some (bytes.length,bytes)

section
variable (be : Bool) (clientPf : PixelFormat)

def recvPalette : Nat → Reader (List UInt32)
  | 0 => pure []
  | count + 1 => recvCPixel be clientPf >>= fun val => recvPalette count >>= fun rest => pure (val :: rest)

def recvRaw : List Point → Screen → Reader Screen
  | [], s => pure s
  | p :: rest, s => recvCPixel be clientPf >>= fun pixel => recvRaw rest (setPixel p pixel s)

/- A row is unpacked from its right end. -/
def recvLine (palette : List UInt32) (field width : Nat) (line : List Point) (s : Screen) : Reader Screen :=
  takeBytes (rowLength (field * width)) >>= fun bytes =>
    ofOption ((streamBitsUnpack bytes width field).bind fun sb => unpackLine palette field line.reverse sb s)

def recvLines (palette : List UInt32) (field : Nat) (reg : Region) : List Nat → Screen → Reader Screen
  | [], s => pure s
  | py :: rest, s =>
    recvLine palette field reg.width ((reg.line py).map storedPoint) s >>= recvLines palette field reg rest

/- A run may be of no points at all; but it is read, so there are no more runs than bytes. -/
def recvPlain : Nat → List Point → Screen → Reader Screen
  | _, [], s => pure s
  | 0, _ :: _, _ => fail
  | fuel + 1, points, s => recvCPixel be clientPf >>= fun pixel => recvRunLength >>= fun runLength =>
      ofOption (fillRun pixel runLength points s) >>= fun left => recvPlain fuel left.1 left.2

def recvIndices (palette : List UInt32) : Nat → List Point → Screen → Reader Screen
  | _, [], s => pure s
  | 0, _ :: _, _ => fail
  | fuel + 1, points, s => recvInt8 >>= fun index =>
      ofOption palette[if index < 128 then index else index - 128]? >>= fun pixel =>
        (if index < 128 then pure 1 else recvRunLength) >>= fun runLength =>
          ofOption (fillRun pixel runLength points s) >>= fun left => recvIndices palette fuel left.1 left.2

def updateSubRegion (reg : Region) (s : Screen) : Reader Screen :=
  let points := reg.points.map storedPoint
  recvInt8 >>= fun type =>
    if type = 0 then recvRaw be clientPf points s
    else if type = 1 then recvCPixel be clientPf >>= fun solid => pure (fillPixel reg solid s)
    else if 2 ≤ type ∧ type ≤ 16 then
      recvPalette be clientPf type >>= fun palette =>
        recvLines palette (fieldWidth type) reg (List.range reg.height) s
    else if (17 ≤ type ∧ type ≤ 127) ∨ type = 129 then fail
    else if type = 128 then remaining >>= fun left => recvPlain be clientPf left points s
    else recvPalette be clientPf (type - 128) >>= fun palette => remaining >>= fun left =>
      recvIndices palette left points s

def updateSubRegions : List Region → Screen → Reader Screen
  | [], s => pure s
  | reg0 :: rest, s => updateSubRegion be clientPf reg0 s >>= updateSubRegions rest

def updateRegion (reg : Region) (s : Screen) : Reader Screen :=
  ofOption (reg.divideBlocks ⟨64,64⟩) >>= fun blocks => updateSubRegions be clientPf blocks s

end
end Ltsm.TrleTiles
