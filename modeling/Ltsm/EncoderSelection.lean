import Mathlib.Data.List.Induction
import Ltsm.UpdateMessages
import Ltsm.Library.Run

/-! The encoder of the framebuffer updates. The types the client has listed are kept in
the order of its preference, those of the last message first; the first one that the
server has an encoder for is taken. -/
namespace Ltsm.EncoderSelection
open Library PixelFormats PixelStreams UpdateMessages

def Encoding.type (enc : Encoding) : Int32 := (UInt32.ofNat enc.code).toInt32

def ENCODING_TIGHT : Int32 := 7
def ENCODING_CONTINUOUS_UPDATES : Int32 := -313
def ENCODING_EXT_CLIPBOARD : Int32 := (0xC0A1E5CE : UInt32).toInt32
def ENCODING_LTSM : Int32 := 0x4C54534D
def ENCODING_LTSM_CURSOR : Int32 := 0x4C54534E
def ENCODING_LTSM_KEYB : Int32 := 0x4B455942

/- ENCODING_COMPRESS1 to ENCODING_COMPRESS9. -/
def ENCODING_COMPRESS1 : Int32 := -255
def clevels : List Int32 := (List.range 9).map fun level => ENCODING_COMPRESS1 + Int32.ofNat level

def encodingNames : List (Int32 × String) :=
  [(0,"Raw"),(1,"CopyRect"),(2,"RRE"),(4,"CoRRE"),(5,"HexTile"),(6,"ZLib"),(ENCODING_TIGHT,"Tight"),(8,"ZLibHex"),
    (15,"TRLE"),(16,"ZRLE"),(-223,"DesktopSize"),(-308,"ExtendedDesktopSize"),(-224,"ExtendedLastRect"),
    (-239,"ExtendedRichCursor"),(-247,"ExtendedCompress9"),(-248,"ExtendedCompress8"),
    (-249,"ExtendedCompress7"),(-250,"ExtendedCompress6"),(-251,"ExtendedCompress5"),
    (-252,"ExtendedCompress4"),(-253,"ExtendedCompress3"),(-254,"ExtendedCompress2"),
    (ENCODING_COMPRESS1,"ExtendedCompress1"),(ENCODING_EXT_CLIPBOARD,"ExtendedClipboard"),
    (ENCODING_CONTINUOUS_UPDATES,"ExtendedContinuousUpdates"),(ENCODING_LTSM,"LTSM_Channels"),
    (Encoding.type .h264,"FFMPEG_H264"),(Encoding.type .mpeg4,"FFMPEG_MPEG4"),(Encoding.type .lz4,"LTSM_LZ4"),
    (Encoding.type .tjpg,"LTSM_TJPG"),(Encoding.type .qoi,"LTSM_QOI"),(Encoding.type .zqoi,"LTSM_ZQOI"),
    (ENCODING_LTSM_CURSOR,"LTSM_CURSOR"),(ENCODING_LTSM_KEYB,"LTSM_KEYB"),(0x4F505553,"LTSM_OPUS"),
    (0x50434D00,"LTSM_PCM")]

def encodingName (type : Int32) : String := (encodingNames.lookup type).getD "unknown"

structure ClientEncodings where
  encs : List Int32 := [Encoding.type .raw]
  deriving DecidableEq, Repr

namespace ClientEncodings

def setPriority (priorities : List Int32) (c : ClientEncodings) : ClientEncodings :=
  ⟨priorities ++ c.encs.filter fun enc => enc ∉ priorities⟩

def isPresent (c : ClientEncodings) (type : Int32) : Bool := type ∈ c.encs

def findPriorityFrom (c : ClientEncodings) (priorities : List Int32) : Int32 :=
  (c.encs.find? fun enc => enc ∈ priorities).getD (Encoding.type .raw)

end ClientEncodings

/- What the server is built and configured with. -/
structure Config where
  ltsmEncoding : Bool
  ffmpeg : Bool
  disabledEncodings : List String

namespace Config
variable (config : Config)

/- The list of serverSelectCompatibleEncoding. -/
def serverEncodings : List Encoding :=
  (if config.ffmpeg then [.h264,.mpeg4] else []) ++
    (if config.ltsmEncoding then [.zqoi,.qoi,.lz4,.tjpg] else []) ++
    [.zrle,.trle,.zlib,.hextile,.corre,.rre,.raw]

/- The cases of serverSelectClientEncoding. -/
def encoders : List Encoding :=
  [.raw,.zlib,.hextile,.corre,.rre,.trle,.zrle] ++ (if config.ffmpeg then [.h264,.mpeg4] else []) ++
    (if config.ltsmEncoding then [.zqoi,.qoi,.lz4,.tjpg] else [])

def disabled (type : Int32) : Bool :=
  config.disabledEncodings.any fun str => (encodingName type).toLower = str.toLower

end Config

/- popcount of a maximum. -/
def popcount (max : Nat) : Nat := (List.range 16).countP max.testBit

def depth (pf : PixelFormat) : Nat :=
  popcount pf.redMax + popcount pf.greenMax + popcount pf.blueMax + popcount pf.alphaMax

/- An encoder, with the level of the deflate stream if it has one. -/
structure Encoder where
  enc : Encoding
  zlevel : Option Int := none
  deriving DecidableEq, Repr

def Z_BEST_SPEED : Int := 1
def Z_BEST_COMPRESSION : Int := 9

def validLevel (zlevel : Int) : Int :=
  if zlevel < Z_BEST_SPEED ∨ Z_BEST_COMPRESSION < zlevel then Z_BEST_SPEED else zlevel

structure Selection where
  stream : EncoderStream
  clientEncodings : ClientEncodings := {}
  encoder : Option Encoder := none
  clientLtsmSupported : Bool := false
  clientLtsmKeyboard : Bool := false

namespace Selection
variable (config : Config)

def serverSelectCompatibleEncoding (s : Selection) : Int32 :=
  s.clientEncodings.findPriorityFrom (config.serverEncodings.map Encoding.type)

def supportedEncoding (s : Selection) (compatible : Int32) : Int32 :=
  if (compatible = Encoding.type .qoi ∨ compatible = Encoding.type .zqoi) ∧ 24 ≠ depth s.stream.serverFormat then
    Encoding.type .lz4
  else compatible

/- The level goes down from the best speed, and out of its range. -/
def clientLevel (s : Selection) : Int :=
  match clevels.find? s.clientEncodings.isPresent with
  | some level => (ENCODING_COMPRESS1 - level).toInt + Z_BEST_SPEED
  | none => Z_BEST_SPEED

def makeEncoder (s : Selection) (type : Int32) : Encoder :=
  match (config.encoders.find? fun enc => Encoding.type enc = type).getD .raw with
  | .zlib => ⟨.zlib,some (validLevel s.clientLevel)⟩
  | .trle => ⟨.trle,some Z_BEST_SPEED⟩
  | .zrle => ⟨.zrle,some Z_BEST_SPEED⟩
  | enc => ⟨enc,none⟩

/- The encoder that is put in the place of the old one; `none` where that is kept. -/
def newEncoder (s : Selection) : Option Encoder :=
  let compatible := s.serverSelectCompatibleEncoding config
  if s.encoder.any fun encoder => Encoding.type encoder.enc = compatible then none
  else some (s.makeEncoder config (s.supportedEncoding compatible))

def serverSelectEncodings (s : Selection) : Selection :=
  {s with encoder := (s.newEncoder config).or s.encoder}

def ltsmTypes : List Int32 :=
  [ENCODING_LTSM,Encoding.type .zqoi,Encoding.type .qoi,Encoding.type .lz4,Encoding.type .tjpg,
    Encoding.type .h264,Encoding.type .mpeg4,ENCODING_LTSM_CURSOR,ENCODING_LTSM_KEYB]

/- Types that are disabled are passed over. -/
def listEncodings (types : List Int32) (s : Selection) : Selection :=
  let recvEncodings := types.filter fun type => !config.disabled type
  {s with
    clientEncodings := s.clientEncodings.setPriority recvEncodings
    clientLtsmSupported := s.clientLtsmSupported || recvEncodings.any fun type => type ∈ ltsmTypes
    clientLtsmKeyboard := s.clientLtsmKeyboard || recvEncodings.any fun type => type = ENCODING_LTSM_KEYB}

def recvSetEncodings (types : List Int32) (s : Selection) : Selection :=
  serverSelectEncodings config (s.listEncodings config types)

/- A format that is refused ends the session; the formats of the stream stay. -/
def recvPixelFormat (msg : SetPixelFormat) (s : Selection) : Selection :=
  {s with stream := (PixelStreams.recvPixelFormat msg s.stream).getD s.stream}

end Selection

inductive Message
  | setEncodings (types : List Int32)
  | setPixelFormat (msg : SetPixelFormat)
  deriving DecidableEq, Repr

def step (config : Config) (s : Selection) : Message → Selection
  | .setEncodings types => s.recvSetEncodings config types
  | .setPixelFormat msg => s.recvPixelFormat msg

/- The first encoder is taken before there is a message. -/
def start (config : Config) (stream : EncoderStream) : Selection := Selection.serverSelectEncodings config {stream}

/-! What is listed, and which of it is used. -/

def Usable (config : Config) (type : Int32) : Prop :=
  type ∈ config.serverEncodings.map Encoding.type ∧ config.disabled type = false

/- Listed in the last message that lists anything usable; the newest message comes first. -/
def ListedLast (config : Config) (type : Int32) : List (List Int32) → Prop
  | [] => False
  | types :: older => (type ∈ types ∧ Usable config type) ∨
      ((∀ other ∈ types, ¬Usable config other) ∧ ListedLast config type older)

def Message.types : Message → Option (List Int32)
  | .setEncodings types => some types
  | .setPixelFormat _ => none

/- The lists of a run, the newest first. -/
def heard (messages : List Message) : List (List Int32) := (messages.filterMap Message.types).reverse

section
variable {config : Config}

/- The preference of the client decides, and older lists where the new one says nothing. -/
theorem prioritySet (c : ClientEncodings) (recv priorities : List Int32) :
    (c.setPriority recv).findPriorityFrom priorities =
      ((recv.find? fun enc => enc ∈ priorities).getD (c.findPriorityFrom priorities)) := by
  unfold ClientEncodings.setPriority ClientEncodings.findPriorityFrom
  rw [List.find?_append]
  cases found : recv.find? fun enc => enc ∈ priorities with
  | some enc => rfl
  | none =>
    have kept : (c.encs.filter fun enc => enc ∉ recv).find? (fun enc => enc ∈ priorities) =
        c.encs.find? fun enc => enc ∈ priorities := by
      rw [List.find?_filter]
      congr 1
      funext enc
      by_cases wanted : enc ∈ priorities
      · have absent : enc ∉ recv := fun listed => by
          have other := List.find?_eq_none.mp found enc listed
          simp [wanted] at other
        simp [wanted,absent]
      · simp [wanted]
    rw [Option.none_or,kept,Option.getD_none]

theorem compatibleListed (s : Selection) (types : List Int32) {messages : List (List Int32)}
    (old : s.serverSelectCompatibleEncoding config = Encoding.type .raw ∨
      ListedLast config (s.serverSelectCompatibleEncoding config) messages) :
    let next := (s.recvSetEncodings config types).serverSelectCompatibleEncoding config
    next = Encoding.type .raw ∨ ListedLast config next (types :: messages) := by
  dsimp only
  unfold Selection.recvSetEncodings Selection.serverSelectEncodings Selection.serverSelectCompatibleEncoding
    Selection.listEncodings
  dsimp only
  rw [prioritySet]
  cases found : (types.filter fun type => !config.disabled type).find?
      fun enc => enc ∈ config.serverEncodings.map Encoding.type with
  | some enc =>
    have able := List.find?_some found
    have listed := List.mem_filter.mp (List.mem_of_find?_eq_some found)
    exact .inr (.inl ⟨listed.1,by simpa using able,by simpa using listed.2⟩)
  | none =>
    rw [Option.getD_none]
    refine old.imp id fun listed => .inr ⟨fun other inside usable => ?_,listed⟩
    have absent := List.find?_eq_none.mp found other (List.mem_filter.mpr ⟨inside,by simp [usable.2]⟩)
    exact absent (by simpa using usable.1)

theorem compatibleAble (s : Selection) :
    s.serverSelectCompatibleEncoding config ∈ config.serverEncodings.map Encoding.type := by
  unfold Selection.serverSelectCompatibleEncoding ClientEncodings.findPriorityFrom
  cases found : s.clientEncodings.encs.find? fun enc => enc ∈ config.serverEncodings.map Encoding.type with
  | some enc => simpa using List.find?_some found
  | none =>
    have raw : Encoding.raw ∈ config.serverEncodings := by simp [Config.serverEncodings]
    exact List.mem_map_of_mem raw

theorem qoiType {enc : Encoding} (same : Encoding.type enc = Encoding.type .qoi ∨
    Encoding.type enc = Encoding.type .zqoi) : enc = .qoi ∨ enc = .zqoi := by
  revert same
  cases enc <;> decide

/- There is an encoder for each type of the list, and for what stands in for it. -/
theorem supportedAble (s : Selection) {type : Int32} (able : type ∈ config.serverEncodings.map Encoding.type) :
    ∃ enc ∈ config.encoders, Encoding.type enc = s.supportedEncoding type := by
  obtain ⟨enc,inside,rfl⟩ := List.mem_map.mp able
  unfold Selection.supportedEncoding
  split
  · rename_i changed
    have ltsm : config.ltsmEncoding = true := by
      rcases qoiType changed.1 with rfl | rfl <;> simpa [Config.serverEncodings] using inside
    exact ⟨.lz4,by simp [Config.encoders,ltsm],rfl⟩
  · refine ⟨enc,?_,rfl⟩
    simp only [Config.serverEncodings,Config.encoders,List.mem_append,List.mem_cons] at inside ⊢
    tauto

theorem makeEncoderKind (s : Selection) (type : Int32) : (s.makeEncoder config type).enc =
    (config.encoders.find? fun enc => Encoding.type enc = type).getD .raw := by
  unfold Selection.makeEncoder
  cases (config.encoders.find? fun enc => Encoding.type enc = type).getD .raw <;> rfl

theorem makeEncoderType (s : Selection) {type : Int32} (able : ∃ enc ∈ config.encoders, Encoding.type enc = type) :
    Encoding.type (s.makeEncoder config type).enc = type := by
  obtain ⟨enc,inside,same⟩ := able
  rw [makeEncoderKind]
  cases found : config.encoders.find? fun enc => Encoding.type enc = type with
  | some made => simpa using List.find?_some found
  | none =>
    have absent := List.find?_eq_none.mp found enc inside
    exact absurd (by simpa using same) absent

theorem supportedTwice (s : Selection) (type : Int32) :
    s.supportedEncoding (s.supportedEncoding type) = s.supportedEncoding type := by
  unfold Selection.supportedEncoding
  split
  · rw [if_neg fun again => by rcases again.1 with same | same <;> exact absurd same (by decide)]
  · rfl

/- Which encoder there is, by the list and the depth alone. -/
def Selected (config : Config) (s : Selection) : Prop :=
  ∃ encoder, s.encoder = some encoder ∧
    Encoding.type encoder.enc = s.supportedEncoding (s.serverSelectCompatibleEncoding config)

/- An encoder that is kept is of the type that would be made. -/
theorem selectSelected (s : Selection)
    (old : ∀ encoder, s.encoder = some encoder → ∃ type, Encoding.type encoder.enc = s.supportedEncoding type) :
    Selected config (s.serverSelectEncodings config) := by
  unfold Selection.serverSelectEncodings Selection.newEncoder
  have able : s.serverSelectCompatibleEncoding config ∈ config.serverEncodings.map Encoding.type := compatibleAble s
  have made := makeEncoderType s (supportedAble s able)
  cases there : s.encoder with
  | none => exact ⟨_,rfl,made⟩
  | some encoder =>
    by_cases same : Encoding.type encoder.enc = s.serverSelectCompatibleEncoding config
    · obtain ⟨type,kind⟩ := old encoder there
      refine ⟨encoder,by simp [same],?_⟩
      change _ = s.supportedEncoding (s.serverSelectCompatibleEncoding config)
      rw [← same,kind,supportedTwice]
    · exact ⟨_,by simp [same],made⟩

theorem stepFormat (s : Selection) (message : Message) :
    (step config s message).stream.serverFormat = s.stream.serverFormat := by
  cases message with
  | setEncodings types => rfl
  | setPixelFormat msg =>
    unfold step Selection.recvPixelFormat PixelStreams.recvPixelFormat
    dsimp only
    split
    · rfl
    · split <;> rfl

theorem stepSelected (s : Selection) (message : Message) (selected : Selected config s) :
    Selected config (step config s message) := by
  obtain ⟨encoder,there,kind⟩ := selected
  cases message with
  | setEncodings types =>
    refine selectSelected _ fun other same => ?_
    cases Option.some.inj (there.symm.trans same)
    exact ⟨_,kind⟩
  | setPixelFormat msg =>
    refine ⟨encoder,there,kind.trans ?_⟩
    unfold Selection.supportedEncoding
    rw [stepFormat]
    rfl

theorem heardStep (messages : List Message) (message : Message) :
    heard (messages ++ [message]) = message.types.toList ++ heard messages := by
  cases message <;> simp [heard,Message.types]

theorem runSelected (config : Config) (stream : EncoderStream) (messages : List Message) :
    let s := run (step config) (start config stream) messages
    Selected config s ∧ s.stream.serverFormat = stream.serverFormat ∧
      (s.serverSelectCompatibleEncoding config = Encoding.type .raw ∨
        ListedLast config (s.serverSelectCompatibleEncoding config) (heard messages)) := by
  induction messages using List.reverseRecOn with
  | nil =>
    refine ⟨selectSelected {stream} (fun _ there => by cases there),rfl,.inl ?_⟩
    change (List.find? _ [Encoding.type .raw]).getD (Encoding.type .raw) = _
    rw [List.find?_singleton]
    split <;> rfl
  | append_singleton messages message ih =>
    obtain ⟨selected,format,listed⟩ := ih
    dsimp only
    rw [runAppend,heardStep]
    refine ⟨stepSelected _ message selected,(stepFormat _ message).trans format,?_⟩
    cases message with
    | setEncodings types => exact compatibleListed _ types listed
    | setPixelFormat msg => exact listed

end

/-! A client that lists ZRLE, and then only a type the server has no encoder for; and one
that lists QOI where the depth is not that of QOI. -/

def usualConfig : Config := ⟨true,false,[]⟩
def usualStream : EncoderStream :=
  ⟨⟨255,255,255,0,16,8,0,0,32⟩,⟨255,255,255,0,16,8,0,0,32⟩,false,false,⟨640,480⟩⟩
def deepStream : EncoderStream := {usualStream with serverFormat := ⟨1023,1023,1023,0,20,10,0,0,32⟩}

end Ltsm.EncoderSelection
