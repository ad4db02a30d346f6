import Ltsm.PixelStreams

/-! Framebuffer updates. An update is a count and so many rectangles, each a header
and the data its encoding makes of the region; the client reads the count and then
that many rectangles. -/
namespace Ltsm.UpdateMessages
open Library Regions PixelStreams

inductive Encoding
  | raw | rre | corre | hextile | zlib | trle | zrle | lz4 | tjpg | qoi | zqoi | h264 | mpeg4
  deriving DecidableEq, Repr

def Encoding.code : Encoding → Nat
  | raw => 0
  | rre => 2
  | corre => 4
  | hextile => 5
  | zlib => 6
  | trle => 15
  | zrle => 16
  | lz4 => 0x4C5A3400
  | tjpg => 0x544A5047
  | qoi => 0x514F4900
  | zqoi => 0x5A514F49
  | h264 => 0x48464D50
  | mpeg4 => 0x4D504734

def sendHeader (type : Nat) (reg : Region) : Bytes :=
  sendIntBE16 (toUInt16 reg.x) ++ (sendIntBE16 (toUInt16 reg.y) ++ (sendIntBE16 reg.width ++
    (sendIntBE16 reg.height ++ sendIntBE32 type)))

def recvHeader : Reader (Region × Nat) :=
  recvIntBE16 >>= fun x => recvIntBE16 >>= fun y => recvIntBE16 >>= fun width =>
    recvIntBE16 >>= fun height => recvIntBE32 >>= fun type =>
      pure (⟨toInt16 x,toInt16 y,width,height⟩,type)

structure Rect where
  type : Nat
  region : Region
  data : Bytes
  deriving DecidableEq, Repr

def Rect.bytes (rect : Rect) : Bytes := sendHeader rect.type rect.region ++ rect.data

/- What an encoder writes: counts, each with the rectangles put after it. -/
abbrev Update := List (Nat × List Rect)

def Update.bytes (update : Update) : Bytes :=
  sendInt8 0 ++ (sendInt8 0 ++ update.flatMap fun part =>
    sendIntBE16 part.1 ++ part.2.flatMap Rect.bytes)

/- The client's state goes through the decoders: the screen, and what a decoder keeps. -/
section
variable {σ : Type} (decode : Nat → Region → σ → Reader σ)

def recvFBUpdateRegion (s : σ) : Reader σ := recvHeader >>= fun header => decode header.2 header.1 s

def recvRects : Nat → σ → Reader σ
  | 0, s => pure s
  | count + 1, s => recvFBUpdateRegion decode s >>= recvRects count

/- The message type is read by the client's loop. -/
def recvFBUpdate (s : σ) : Reader σ :=
  recvInt8 >>= fun _ => recvInt8 >>= fun _ => recvIntBE16 >>= fun count => recvRects decode count s

variable {decode}

theorem toInt16OfStored {value : Int} (same : toInt16 value = value) : toInt16 (toUInt16 value) = value := by
  have nonneg : 0 ≤ value % 65536 := Int.emod_nonneg value (by decide)
  rw [toUInt16,Int.toNat_of_nonneg nonneg,toInt16]
  exact (Int.emod_bmod value 65536).trans same

theorem readsSmall16 {value : Nat} (small : value < 65536) : Reads recvIntBE16 (sendIntBE16 value) value := by
  have read := readsIntBE16 value
  rwa [Nat.mod_eq_of_lt small] at read

theorem readsSmall32 {value : Nat} (small : value < 4294967296) :
    Reads recvIntBE32 (sendIntBE32 value) value := by
  have read := readsIntBE32 value
  rwa [Nat.mod_eq_of_lt small] at read

theorem toUInt16Small (value : Int) : toUInt16 value < 65536 := by
  unfold toUInt16
  omega

/- A region whose fields are what they are stored as. -/
structure Stored (reg : Region) : Prop where
  x : toInt16 reg.x = reg.x
  y : toInt16 reg.y = reg.y
  wide : reg.width < 65536
  high : reg.height < 65536

theorem storedFits {reg : Region} (fits : reg.Fits) (filled : 0 < reg.width ∧ 0 < reg.height) :
    Stored reg := by
  obtain ⟨left,top,right,bottom⟩ := fits
  exact ⟨toInt16Fits (by omega) (by omega),toInt16Fits (by omega) (by omega),by omega,by omega⟩

theorem readsHeader {type : Nat} {reg : Region} (stored : Stored reg) (small : type < 4294967296) :
    Reads recvHeader (sendHeader type reg) (reg,type) := by
  have read : Reads recvHeader (sendHeader type reg)
      (⟨toInt16 (toUInt16 reg.x),toInt16 (toUInt16 reg.y),reg.width,reg.height⟩,type) :=
    readsBind (readsSmall16 (toUInt16Small _)) (readsBind (readsSmall16 (toUInt16Small _))
      (readsBind (readsSmall16 stored.wide) (readsBind (readsSmall16 stored.high)
        (readsMap (readsSmall32 small) _))))
  rwa [toInt16OfStored stored.x,toInt16OfStored stored.y] at read

theorem codeSmall (enc : Encoding) : enc.code < 4294967296 := by
  cases enc <;> decide

/- The rectangles of one encoding; `Rest` says of a state what the rectangles still to
come have to do to it. -/
theorem readsRects {enc : Encoding} {rects : List Rect} (Rest : List Rect → σ → Prop)
    (typed : ∀ rect ∈ rects, rect.type = enc.code) (stored : ∀ rect ∈ rects, Stored rect.region)
    (each : ∀ rect ∈ rects, ∀ rest s, Rest (rect :: rest) s →
      ∃ s', Reads (decode enc.code rect.region s) rect.data s' ∧ Rest rest s')
    {s : σ} (start : Rest rects s) :
    ∃ s', Reads (recvRects decode rects.length s) (rects.flatMap Rect.bytes) s' ∧ Rest [] s' := by
  induction rects generalizing s with
  | nil => exact ⟨s,readsPure s,start⟩
  | cons rect rest ih =>
    obtain ⟨firstTyped,restTyped⟩ := List.forall_mem_cons.mp typed
    obtain ⟨firstStored,restStored⟩ := List.forall_mem_cons.mp stored
    obtain ⟨firstEach,restEach⟩ := List.forall_mem_cons.mp each
    obtain ⟨middle,firstReads,carried⟩ := firstEach rest s start
    obtain ⟨last,restReads,done⟩ := ih restTyped restStored restEach carried
    have first : Reads (recvFBUpdateRegion decode s) rect.bytes middle := by
      rw [Rect.bytes,firstTyped]
      exact readsBind (readsHeader firstStored (codeSmall enc)) firstReads
    exact ⟨last,readsBind first restReads,done⟩

theorem readsUpdate {enc : Encoding} {rects : List Rect} (few : rects.length < 65536)
    (typed : ∀ rect ∈ rects, rect.type = enc.code) (stored : ∀ rect ∈ rects, Stored rect.region)
    (each : ∀ rect ∈ rects, ∀ s, ∃ s', Reads (decode enc.code rect.region s) rect.data s') (s : σ) :
    ∃ s', Reads (recvFBUpdate decode s) (Update.bytes [(rects.length,rects)]) s' := by
  have bytes : Update.bytes [(rects.length,rects)] = sendInt8 0 ++ (sendInt8 0 ++
      (sendIntBE16 rects.length ++ rects.flatMap Rect.bytes)) := by
    simp [Update.bytes]
  have reaches (rect) (listed : rect ∈ rects) (_ : List Rect) (s : σ) (_ : True) :
      ∃ s', Reads (decode enc.code rect.region s) rect.data s' ∧ True :=
    (each rect listed s).imp fun _ reads => ⟨reads,trivial⟩
  obtain ⟨last,reads,_⟩ := readsRects (fun _ _ => True) typed stored reaches trivial (s := s)
  rw [bytes]
  exact ⟨last,readsBind (readsInt8 0) (readsBind (readsInt8 0) (readsBind (readsSmall16 few) reads))⟩

end
end Ltsm.UpdateMessages
