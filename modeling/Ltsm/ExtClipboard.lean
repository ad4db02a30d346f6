import Ltsm.ZLibBlocks
import Ltsm.CutText
import Mathlib.Data.Nat.Bitwise

/-! The extended clipboard of one end: what it may do, what the other end may do, and
the formats it has asked for. Flag words are numbers, a format or an operation one bit
of them. What an end holds itself is given by `Owner`. -/
namespace Ltsm.ExtClipboard
open Library PixelStreams ZLibBlocks

inductive ExtClipCaps
  | typeText | typeRtf | typeHtml | typeDib | typeFiles
  | opCaps | opRequest | opPeek | opNotify | opProvide
  deriving DecidableEq, Repr

def ExtClipCaps.bit : ExtClipCaps → Nat
  | typeText => 0
  | typeRtf => 1
  | typeHtml => 2
  | typeDib => 3
  | typeFiles => 4
  | opCaps => 24
  | opRequest => 25
  | opPeek => 26
  | opNotify => 27
  | opProvide => 28

def ExtClipCaps.flag (cap : ExtClipCaps) : Nat := 1 <<< cap.bit

def allows (flags : Nat) (cap : ExtClipCaps) : Bool := flags.testBit cap.bit

/- The formats the program knows, in the order in which their data is written. -/
def knownTypes : List ExtClipCaps := [.typeText,.typeRtf,.typeHtml,.typeDib,.typeFiles]

def typesMask : Nat := 0xFFFF
def allOps : List ExtClipCaps := [.opRequest,.opPeek,.opNotify,.opProvide]

/- The largest size of each known format that may come unasked. -/
structure Sizes where
  text : Nat := 0
  rtf : Nat := 0
  html : Nat := 0
  dib : Nat := 0
  files : Nat := 0
  deriving DecidableEq, Repr

def Sizes.list (sizes : Sizes) : List Nat := [sizes.text,sizes.rtf,sizes.html,sizes.dib,sizes.files]

structure ExtClip where
  remoteFlags : Nat := 0
  remoteSizes : Sizes := {}
  localFlags : Nat := 0
  localSizes : Sizes := {}
  localProvideTypes : Nat := 0
  deriving DecidableEq, Repr

inductive Event
  | send (buf : Bytes)
  | remoteTypes (types : Nat)
  | remoteData (bit : Nat) (buf : Bytes)
  deriving DecidableEq, Repr

/- Text, rtf and html; request, notify and provide: what the programs set up on both ends. -/
def usualFlags : Nat := 0x1A000007

/- A handler that throws keeps what it did before. -/
structure Outcome where
  clip : ExtClip
  events : List Event := []
  threw : Bool := false
  deriving DecidableEq, Repr

/- What the selection of this end holds; `none` is an exception. -/
structure Owner where
  localTypes : Nat
  localData : ExtClipCaps → Option Bytes

/- StreamBuf::read, where a length of zero stands for all that is left. -/
def read (len : Nat) : Reader Bytes := fun bytes =>
  if len = 0 then some (bytes,[]) else takeBytes len bytes

def isRemoteData : Event → Option (Nat × Bytes)
  | .remoteData bit buf => some (bit,buf)
  | _ => none

def Outcome.delivered (out : Outcome) : List (Nat × Bytes) := out.events.filterMap isRemoteData

def outcomeOf (clip : ExtClip) : Option (ExtClip × List Event) → Outcome
  | none => {clip, threw := true}
  | some (clip,events) => {clip, events}

/-! Sending. -/

def sendExtClipboardCapsEvent (clip : ExtClip) : Bytes :=
  let allowFlags := [.typeText,.typeRtf,.typeHtml,.typeDib,.opRequest,.opPeek,.opNotify,.opProvide].foldl
    (fun flags (cap : ExtClipCaps) => flags ||| cap.flag) 0
  let serverAllow := clip.localFlags &&& allowFlags
  sendIntBE32 (ExtClipCaps.opCaps.flag ||| serverAllow) ++
    ((knownTypes.zip clip.localSizes.list).filter fun (type,_) => allows serverAllow type).flatMap
      fun (_,size) => sendIntBE32 size

def sendExtClipboardRequest (types : Nat) (clip : ExtClip) : Outcome :=
  if types = 0 then {clip}
  else if clip.localProvideTypes &&& types = types then {clip}
  else
    let allowTypes := clip.remoteFlags &&& types
    { clip := {clip with localProvideTypes := clip.localProvideTypes ||| allowTypes}
      events := [.send (sendIntBE32 (ExtClipCaps.opRequest.flag ||| allowTypes))] }

def sendExtClipboardPeek (clip : ExtClip) : Outcome :=
  {clip, events := [.send (sendIntBE32 ExtClipCaps.opPeek.flag)]}

def sendExtClipboardNotify (types : Nat) (clip : ExtClip) : Outcome :=
  {clip, events := [.send (sendIntBE32 (ExtClipCaps.opNotify.flag ||| (clip.remoteFlags &&& types)))]}

/- The size and the data of each format, known formats first to last. -/
def formatStream (owner : Owner) (types : Nat) : Option Bytes := do
  let parts ← (knownTypes.filter (allows types)).mapM owner.localData
  pure (parts.flatMap fun buf => sendIntBE32 buf.length ++ buf)

/- Unlike the other messages this one is written without a word of flags. -/
def provideMessage (z : ZLib) (owner : Owner) (types : Nat) : Option Bytes := do
  let stream ← formatStream owner types
  let zip := z.deflateData stream
  pure (sendIntBE32 zip.length ++ zip)

def sendExtClipboardProvide (z : ZLib) (owner : Owner) (types : Nat) (clip : ExtClip) : Outcome :=
  outcomeOf clip ((provideMessage z owner types).map fun buf => (clip,[.send buf]))

/-! Receiving. -/

def popcount (flags : Nat) (bits : List Nat) : Nat := (bits.filter (flags.testBit ·)).length

def readSize (flags : Nat) (type : ExtClipCaps) : Reader Nat :=
  if allows flags type then recvIntBE32 else pure 0

def readSizes (flags : Nat) : Reader Sizes := do
  let text ← readSize flags .typeText
  let rtf ← readSize flags .typeRtf
  let html ← readSize flags .typeHtml
  let dib ← readSize flags .typeDib
  let files ← readSize flags .typeFiles
  pure {text, rtf, html, dib, files}

def clearBit (flags bit : Nat) : Nat := flags &&& (0xFFFFFFFF ^^^ (1 <<< bit))

/- The mask takes the bit of the message out; what follows the known sizes is skipped. -/
def recvExtClipboardCapsContinue (flags : Nat) (sb : Bytes) (clip : ExtClip) : Outcome :=
  outcomeOf clip (((readSizes flags).run sb).map fun (remoteSizes,_) =>
    ({clip with remoteSizes, remoteFlags := clearBit flags ExtClipCaps.opCaps.bit},[]))

def recvExtClipboardRequest (z : ZLib) (owner : Owner) (flags : Nat) (clip : ExtClip) : Outcome :=
  if allows clip.localFlags .opRequest then
    sendExtClipboardProvide z owner (typesMask &&& clip.localFlags &&& flags) clip
  else {clip, threw := true}

def recvExtClipboardPeek (owner : Owner) (clip : ExtClip) : Outcome :=
  if allows clip.localFlags .opPeek then
    sendExtClipboardNotify (typesMask &&& clip.localFlags &&& owner.localTypes) clip
  else {clip, threw := true}

/- The event throws at an end whose peer may do nothing. -/
def extClipboardRemoteTypesEvent (types : Nat) (clip : ExtClip) : Outcome :=
  if clip.remoteFlags = 0 then {clip, threw := true} else {clip, events := [.remoteTypes types]}

def recvExtClipboardNotify (flags : Nat) (clip : ExtClip) : Outcome :=
  if allows clip.localFlags .opNotify then
    extClipboardRemoteTypesEvent (typesMask &&& clip.remoteFlags &&& flags) clip
  else {clip, threw := true}

/- A format of the inflated data: its size, and that much of it. -/
def readFormat : Reader Bytes := recvIntBE32 >>= fun len => read len

/- The loop of recvExtClipboardProvide. Which formats it expects the message to hold
is told by the requests this end has sent. -/
def takeFormats : List Nat → Bytes → ExtClip → Outcome
  | [],_,clip => {clip}
  | bit :: bits,sbr,clip =>
    if clip.localProvideTypes.testBit bit then
      match readFormat.run sbr with
      | none => {clip, threw := true}
      | some (raw,sbr) =>
        if clip.remoteFlags = 0 then {clip, threw := true}
        else
          let out := takeFormats bits sbr
            {clip with localProvideTypes := clearBit clip.localProvideTypes bit}
          {out with events := .remoteData bit raw :: out.events}
    else takeFormats bits sbr clip

def recvExtClipboardProvide (z : ZLib) (sb : Bytes) (clip : ExtClip) : Outcome :=
  if allows clip.localFlags .opProvide then
    match recvIntBE32.run sb with
    | none => {clip, threw := true}
    | some (len,sb) =>
      if len = 0 then {clip}
      else
        match (read len).run sb with
        | none => {clip, threw := true}
        | some (zip,_) =>
          match z.inflateData zip with
          | none => {clip, threw := true}
          | some buf => takeFormats (List.range 32) buf clip
  else {clip, threw := true}

def recvExtClipboardCapsEvent (z : ZLib) (owner : Owner) (buf : Bytes) (clip : ExtClip) : Outcome :=
  match recvIntBE32.run buf with
  | none => {clip, threw := true}
  | some (flags,sb) =>
    if allows flags .opCaps then
      if sb.length < popcount flags (List.range 16) * 4 then {clip, threw := true}
      else recvExtClipboardCapsContinue flags sb clip
    else if popcount flags (allOps.map ExtClipCaps.bit) ≠ 1 then {clip}
    else if allows flags .opRequest then recvExtClipboardRequest z owner flags clip
    else if allows flags .opPeek then recvExtClipboardPeek owner clip
    else if allows flags .opNotify then recvExtClipboardNotify flags clip
    else recvExtClipboardProvide z sb clip

/-! What an end tells the other of itself. -/

/- Text, rtf, html and dib, and every operation but the message's own. -/
def capsMask : Nat := 0x1E00000F

def toldFlags (clip : ExtClip) : Nat := clip.localFlags &&& capsMask

def toldSize (clip : ExtClip) (type : ExtClipCaps) (size : Nat) : Nat :=
  if allows (toldFlags clip) type then size else 0

def toldSizes (clip : ExtClip) : Sizes where
  text := toldSize clip .typeText clip.localSizes.text
  rtf := toldSize clip .typeRtf clip.localSizes.rtf
  html := toldSize clip .typeHtml clip.localSizes.html
  dib := toldSize clip .typeDib clip.localSizes.dib
  files := toldSize clip .typeFiles clip.localSizes.files

/- The size of a format on the wire, where the message has one. -/
def sizePart (clip : ExtClip) (type : ExtClipCaps) (size : Nat) : Bytes :=
  if allows (toldFlags clip) type then sendIntBE32 size else []

def sizeParts (clip : ExtClip) : Bytes :=
  sizePart clip .typeText clip.localSizes.text ++ (sizePart clip .typeRtf clip.localSizes.rtf ++
    (sizePart clip .typeHtml clip.localSizes.html ++ (sizePart clip .typeDib clip.localSizes.dib ++
      (sizePart clip .typeFiles clip.localSizes.files ++ []))))

section
variable {clip : ExtClip}

theorem toldTypes (bit : Nat) (below : bit < 24) :
    (ExtClipCaps.opCaps.flag ||| toldFlags clip).testBit bit = (toldFlags clip).testBit bit := by
  have other : ExtClipCaps.opCaps.flag.testBit bit = false := by
    rw [ExtClipCaps.flag,Nat.one_shiftLeft,Nat.testBit_two_pow]
    exact decide_eq_false (by simp [ExtClipCaps.bit]; omega)
  rw [Nat.testBit_or,other,Bool.false_or]

theorem toldLow (bit : Nat) (unknown : capsMask.testBit bit = false) : (toldFlags clip).testBit bit = false := by
  rw [toldFlags,Nat.testBit_and,unknown,Bool.and_false]

theorem readsSize {type : ExtClipCaps} {size : Nat} (known : type.bit < 24) (small : size < 4294967296) :
    Reads (readSize (ExtClipCaps.opCaps.flag ||| toldFlags clip) type) (sizePart clip type size)
      (toldSize clip type size) := by
  unfold readSize sizePart toldSize
  rw [allows,toldTypes _ known,allows]
  split
  · exact UpdateMessages.readsSmall32 small
  · exact readsPure 0

theorem readsSizes (small : ∀ size ∈ clip.localSizes.list, size < 4294967296) :
    Reads (readSizes (ExtClipCaps.opCaps.flag ||| toldFlags clip)) (sizeParts clip) (toldSizes clip) := by
  simp only [Sizes.list,List.forall_mem_cons] at small
  obtain ⟨text,rtf,html,dib,files,_⟩ := small
  exact readsBind (readsSize (by decide) text) (readsBind (readsSize (by decide) rtf)
    (readsBind (readsSize (by decide) html) (readsBind (readsSize (by decide) dib)
      (readsBind (readsSize (by decide) files) (readsPure _)))))

theorem capsMessage (clip : ExtClip) : sendExtClipboardCapsEvent clip =
    sendIntBE32 (ExtClipCaps.opCaps.flag ||| toldFlags clip) ++ sizeParts clip := by
  have mask : ([.typeText,.typeRtf,.typeHtml,.typeDib,.opRequest,.opPeek,.opNotify,.opProvide].foldl
      (fun flags (cap : ExtClipCaps) => flags ||| cap.flag) 0) = capsMask := by decide
  rw [sendExtClipboardCapsEvent]
  dsimp only
  rw [mask]
  congr 1
  have parts (known : List (ExtClipCaps × Nat)) : (known.filter fun (type,_) => allows (toldFlags clip) type).flatMap
      (fun (_,size) => sendIntBE32 size) = known.flatMap fun (type,size) => sizePart clip type size := by
    induction known with
    | nil => rfl
    | cons one rest ih =>
      obtain ⟨type,size⟩ := one
      rw [List.flatMap_cons,← ih,List.filter_cons]
      dsimp only
      rw [sizePart]
      split <;> rfl
  exact parts _

/- The check of the message's length never fails on it. -/
theorem toldCount (clip : ExtClip) : popcount (ExtClipCaps.opCaps.flag ||| toldFlags clip) (List.range 16) * 4 =
    (sizeParts clip).length := by
  have part (type : ExtClipCaps) (size : Nat) :
      (sizePart clip type size).length = ((toldFlags clip).testBit type.bit).toNat * 4 := by
    unfold sizePart allows
    cases (toldFlags clip).testBit type.bit with
    | true => exact lengthBigEndian ..
    | false => rfl
  have same : (List.range 16).filter ((ExtClipCaps.opCaps.flag ||| toldFlags clip).testBit ·) =
      (List.range 16).filter (toldFlags clip).testBit :=
    List.filter_congr fun bit inside => toldTypes bit (by simp at inside; omega)
  have unknown : (List.range' 4 12).filter (toldFlags clip).testBit = [] := by
    refine List.filter_eq_nil_iff.mpr fun bit inside => ?_
    have masked : ∀ bit ∈ List.range' 4 12, capsMask.testBit bit = false := by decide
    rw [toldLow bit (masked bit inside)]
    exact Bool.false_ne_true
  have range : List.range 16 = [0,1,2,3] ++ List.range' 4 12 := rfl
  have files : (toldFlags clip).testBit 4 = false := toldLow 4 (by decide)
  rw [popcount,same,range,List.filter_append,unknown,List.append_nil,← List.countP_eq_length_filter]
  have one (bit : Bool) : (if bit = true then 1 else 0) = bit.toNat := by cases bit <;> rfl
  simp only [sizeParts,List.length_append,List.length_nil,part,List.countP_cons,List.countP_nil,ExtClipCaps.bit,one,files,
    Bool.toNat_false]
  omega

/- The other end takes down what this end may do and how much of it, whatever it knew before. -/
theorem capsTold (z : ZLib) (owner : Owner) (clip peer : ExtClip)
    (small : ∀ size ∈ clip.localSizes.list, size < 4294967296) :
    recvExtClipboardCapsEvent z owner (sendExtClipboardCapsEvent clip) peer =
      {clip := {peer with remoteFlags := toldFlags clip, remoteSizes := toldSizes clip}} := by
  have flagsSmall : ExtClipCaps.opCaps.flag ||| toldFlags clip < 2 ^ 32 :=
    Nat.or_lt_two_pow (by decide) (lt_of_le_of_lt Nat.and_le_right (by decide))
  have caps : allows (ExtClipCaps.opCaps.flag ||| toldFlags clip) .opCaps = true := by
    rw [allows,Nat.testBit_or]
    exact Bool.or_eq_true_iff.mpr (.inl (by decide))
  have sizes := readsSizes small []
  rw [List.append_nil] at sizes
  rw [recvExtClipboardCapsEvent,capsMessage,UpdateMessages.readsSmall32 flagsSmall]
  dsimp only
  rw [if_pos caps,toldCount,if_neg (Nat.lt_irrefl _),recvExtClipboardCapsContinue,sizes]
  have cleared : clearBit (ExtClipCaps.opCaps.flag ||| toldFlags clip) ExtClipCaps.opCaps.bit =
      toldFlags clip := by
    have gone : ExtClipCaps.opCaps.flag &&& (0xFFFFFFFF ^^^ (1 <<< ExtClipCaps.opCaps.bit)) = 0 := by decide
    have stays : capsMask &&& (0xFFFFFFFF ^^^ (1 <<< ExtClipCaps.opCaps.bit)) = capsMask := by decide
    rw [clearBit,Nat.and_or_distrib_right,gone,Nat.zero_or,toldFlags,Nat.and_assoc,stays]
  rw [Option.map_some,cleared]
  rfl

end
end Ltsm.ExtClipboard
