import Ltsm.FrameBuffers

/-! QOI. The encoder writes an opcode for every pixel or run of pixels, the decoder
reads them; each keeps the pixel before, a table of pixels by their hash, and the
length of the run it is in. -/
namespace Ltsm.QoiCodec
open Library Regions PixelFormats PixelStreams FrameBuffers

def INDEX : Nat := 0x00
def DIFF : Nat := 0x40
def LUMA : Nat := 0x80
def RUN : Nat := 0xC0
def RGB : Nat := 0xFE
def MASK2 : Nat := 0xC0

def hashIndex64RGB (col : Color) : Nat := (col.r.toNat * 3 + col.g.toNat * 5 + col.b.toNat * 7) % 64

/- Entries are −1 until they are set. -/
abbrev Hashes := Nat → Option UInt32

def Hashes.set (hashes : Hashes) (index : Nat) (pixel : UInt32) : Hashes :=
  fun i => if i = index then some pixel else hashes i

/- What either end keeps from pixel to pixel. -/
structure Tables where
  hashes : Hashes
  prevPixel : Option UInt32
  run : Nat

def Tables.start : Tables := ⟨fun _ => none,none,0⟩

def toInt8 (value : Int) : Int := value.bmod 256

/-! The encoder. -/

def sendRGB (col : Color) : Bytes := sendInt8 RGB ++ [col.r,col.g,col.b]

def sendChange (pcol col : Color) : Bytes :=
  let vr := toInt8 ((col.r.toNat : Int) - pcol.r.toNat)
  let vg := toInt8 ((col.g.toNat : Int) - pcol.g.toNat)
  let vb := toInt8 ((col.b.toNat : Int) - pcol.b.toNat)
  let vg_r := toInt8 (vr - vg)
  let vg_b := toInt8 (vb - vg)
  if -3 < vr ∧ vr < 2 ∧ -3 < vg ∧ vg < 2 ∧ -3 < vb ∧ vb < 2 then
    sendInt8 (DIFF ||| (vr + 2).toNat <<< 4 ||| (vg + 2).toNat <<< 2 ||| (vb + 2).toNat)
  else if -9 < vg_r ∧ vg_r < 8 ∧ -33 < vg ∧ vg < 32 ∧ -9 < vg_b ∧ vg_b < 8 then
    sendInt8 (LUMA ||| (vg + 32).toNat) ++ sendInt8 ((vg_r + 8).toNat <<< 4 ||| (vg_b + 8).toNat)
  else sendRGB col

section
variable (clientPf : PixelFormat)

/- A pixel that differs from the one before. -/
def encodeOther (e : Tables) (pixel : UInt32) : Tables × Bytes :=
  let col := clientPf.color pixel
  let index := hashIndex64RGB col
  if e.hashes index = some pixel then ({e with prevPixel := some pixel},sendInt8 (INDEX ||| index))
  else ({e with hashes := e.hashes.set index pixel, prevPixel := some pixel},
    match e.prevPixel with
    | none => sendRGB col
    | some prevPixel => sendChange (clientPf.color prevPixel) col)

def encodePixel (pixelLast : Bool) (e : Tables) (pixel : UInt32) : Tables × Bytes :=
  if e.prevPixel = some pixel then
    let run := e.run + 1
    if run = 62 ∨ pixelLast then ({e with run := 0},sendInt8 (RUN ||| (run - 1)))
    else ({e with run},[])
  else
    let flushed := if e.run = 0 then [] else sendInt8 (RUN ||| (e.run - 1))
    let next := encodeOther clientPf {e with run := 0} pixel
    (next.1,flushed ++ next.2)

def encodePixels (e : Tables) : List UInt32 → Tables × Bytes
  | [] => (e,[])
  | pixel :: rest =>
    let next := encodePixel clientPf rest.isEmpty e pixel
    let later := encodePixels next.1 rest
    (later.1,next.2 ++ later.2)

def sourcePixels (fb : FrameBuffer) (reg : Region) : List UInt32 :=
  (Region.mk 0 0 reg.width reg.height).points.map fun p => clientPf.pixel (fb.color (reg.topLeft.add p))

end

def qoiPadding : Bytes := [0,0,0,0,0,0,0,1]

/- size_t has 64 bits; a vector takes half of that. -/
def alignUp (n alignment : Nat) : Nat := (n + alignment - 1) % 18446744073709551616 / alignment * alignment
def reserves (size : Nat) : Bool := alignUp size 8 ≤ 9223372036854775807

/- The size of the buffer is computed as an int. -/
def streamSize (reg : Region) : Nat :=
  ((wrapInt (reg.height * reg.width * 8)).tdiv 3 % 18446744073709551616).toNat

def encodeBGRx (fb : FrameBuffer) (reg : Region) (clientPf : PixelFormat) : Option Bytes :=
  if reserves (streamSize reg) then
    some ((encodePixels clientPf .start (sourcePixels clientPf fb reg)).2 ++ qoiPadding)
  else none

/-! The decoder. -/

def packBGRx (col : Color) (pf : PixelFormat) : UInt32 :=
  shiftUp col.b.toUInt32 pf.blueShift ||| shiftUp col.g.toUInt32 pf.greenShift |||
    shiftUp col.r.toUInt32 pf.redShift

def unpackBGRx (pixel : UInt32) (pf : PixelFormat) : Color where
  r := UInt8.ofNat ((pixel &&& pf.rmask) >>> UInt32.ofNat pf.redShift).toNat
  g := UInt8.ofNat ((pixel &&& pf.gmask) >>> UInt32.ofNat pf.greenShift).toNat
  b := UInt8.ofNat ((pixel &&& pf.bmask) >>> UInt32.ofNat pf.blueShift).toNat

/- −1 as a pixel. -/
def Tables.pixel (d : Tables) : UInt32 := d.prevPixel.getD 0xFFFFFFFF

def changed (value : UInt8) (change : Int) : UInt8 := UInt8.ofInt (value.toNat + change)

section
variable (pf : PixelFormat)

def remember (d : Tables) (col : Color) : Tables :=
  {d with hashes := d.hashes.set (hashIndex64RGB col) (packBGRx col pf), prevPixel := some (packBGRx col pf)}

def decodeDiff (pcol : Color) (type : Nat) : Color where
  r := changed pcol.r ((type >>> 4 &&& 0x03 : Nat) - 2)
  g := changed pcol.g ((type >>> 2 &&& 0x03 : Nat) - 2)
  b := changed pcol.b ((type &&& 0x03 : Nat) - 2)

def decodeLuma (pcol : Color) (type lm : Nat) : Color :=
  let vg : Int := (type &&& 0x3f : Nat) - 32
  let red : Nat := lm >>> 4 &&& 0x0f
  let blue : Nat := lm &&& 0x0f
  {r := changed pcol.r (vg - 8 + red), g := changed pcol.g vg, b := changed pcol.b (vg - 8 + blue)}

def recvColor : Reader Color :=
  recvInt8 >>= fun r => recvInt8 >>= fun g => recvInt8 >>= fun b =>
    pure {r := UInt8.ofNat r, g := UInt8.ofNat g, b := UInt8.ofNat b}

def decodeOpcode (d : Tables) : Reader Tables :=
  recvInt8 >>= fun type =>
    if type = RGB then recvColor >>= fun col => pure (remember pf d col)
    else if type &&& MASK2 = INDEX then
      if 64 ≤ type then fail
      else ofOption (d.hashes type) >>= fun pixel => pure {d with prevPixel := some pixel}
    else if type &&& MASK2 = DIFF then pure (remember pf d (decodeDiff (unpackBGRx d.pixel pf) type))
    else if type &&& MASK2 = LUMA then
      recvInt8 >>= fun lm => pure (remember pf d (decodeLuma (unpackBGRx d.pixel pf) type lm))
    else if type &&& MASK2 = RUN then pure {d with run := type &&& 0x3f}
    else fail

/- In all cases the pixel before is the one that is set. -/
def decodePixel (d : Tables) : Reader Tables :=
  if d.run ≠ 0 then pure {d with run := d.run - 1} else decodeOpcode pf d

def decodePixels : List Point → Tables × FrameBuffer → Reader (Tables × FrameBuffer)
  | [], s => pure s
  | p :: rest, (d,fb) => decodePixel pf d >>= fun d =>
      ofOption (fb.setPixel p d.pixel) >>= fun fb => decodePixels rest (d,fb)

def decodeBGRx (buf : Bytes) (rsz : Region) : Option FrameBuffer := do
  let size : Region := ⟨0,0,rsz.width,rsz.height⟩
  let ((_,fb),_) ← (decodePixels pf size.points (.start,⟨size,pf,fun _ => 0⟩)).run buf
  some fb

end
end Ltsm.QoiCodec
