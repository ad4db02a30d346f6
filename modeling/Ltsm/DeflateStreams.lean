import Ltsm.ChannelTypes
import Ltsm.EncoderSelection

/-! The deflate streams of the framebuffer updates. An encoder of a zlib type keeps one
deflate stream for all its blocks, a decoder one inflate stream. The server starts a stream
with each encoder and with each level it is told; the client starts one when a rectangle is
of another type than the one before it. -/
namespace Ltsm.DeflateStreams
open Library PixelStreams UpdateMessages EncoderSelection
open Channel (stoi)

/- What a deflate stream makes of one buffer, by its place among the others. -/
structure Block where
  stream : Nat
  index : Nat
  deriving DecidableEq, Repr

def blocks (stream count : Nat) : List Block := (List.range count).map (Block.mk stream)

/- A rectangle on the wire. An empty buffer makes no block. -/
structure SentRect where
  type : Encoding
  block : Option Block := none
  deriving DecidableEq, Repr

/-! The client. -/

structure Decoder where
  type : Encoding
  inflated : List Block := []
  deriving DecidableEq, Repr

/- A block, and what the inflate stream had consumed when it came. -/
structure Decoded where
  inflated : List Block
  block : Block
  deriving DecidableEq, Repr

structure Client where
  decoder : Option Decoder := none
  decoded : List Decoded := []
  deriving DecidableEq, Repr

namespace Client

/- The blocks a decoder of the type has consumed, a new one if the old is of another. -/
def held (c : Client) (type : Encoding) : List Block :=
  match c.decoder with
  | some decoder => if type ≠ decoder.type then [] else decoder.inflated
  | none => []

def recvDecodingUpdateRegion (c : Client) (rect : SentRect) : Client :=
  match rect.block with
  | some block => ⟨some ⟨rect.type,c.held rect.type ++ [block]⟩,c.decoded ++ [⟨c.held rect.type,block⟩]⟩
  | none => {c with decoder := some ⟨rect.type,c.held rect.type⟩}

def recvRects (c : Client) (rects : List SentRect) : Client := run recvDecodingUpdateRegion c rects

end Client

/-! The server, and what is on the way from it. -/

def Encoding.deflates : Encoding → Bool
  | .zlib | .zrle => true
  | _ => false

/- EncodingZlib sends its region whole, EncodingTRLE by blocks. -/
def buffers (type : Encoding) (regions : List Bytes) : List Bytes :=
  if type = .zlib then [regions.flatten] else regions

def deflateRects (type : Encoding) (stream : Nat) : Nat → List Bytes → List SentRect
  | _, [] => []
  | sent, [] :: rest => ⟨type,none⟩ :: deflateRects type stream sent rest
  | sent, (_ :: _) :: rest => ⟨type,some ⟨stream,sent⟩⟩ :: deflateRects type stream (sent + 1) rest

def sentRects (type : Encoding) (stream sent : Nat) (regions : List Bytes) : List SentRect :=
  if Encoding.deflates type then deflateRects type stream sent (buffers type regions)
  else (buffers type regions).map fun _ => ⟨type,none⟩

structure Session where
  selection : Selection
  stream : Nat := 0
  sent : Nat := 0
  made : Nat := 1
  wire : List SentRect := []
  read : List SentRect := []
  client : Client := {}

namespace Session
variable (config : Config)

def newDeflate (s : Session) : Session := {s with stream := s.made, sent := 0, made := s.made + 1}

def recvMessage (s : Session) (message : Message) : Session :=
  let next := {s with selection := EncoderSelection.step config s.selection message}
  match message with
  | .setEncodings types =>
    if ((s.selection.listEncodings config types).newEncoder config).isSome then next.newDeflate else next
  | .setPixelFormat _ => next

/- A level that is no number leaves the old one, and the stream is a new one all the same. -/
def setEncodingOption (s : Session) (str : String) : Session :=
  match s.selection.encoder with
  | some ⟨.zlib,zlevel⟩ =>
    match "zlev".toList.isPrefixOf str.toList, str.toList.dropWhile (· ≠ ':') with
    | true, _ :: level =>
      newDeflate {s with selection := {s.selection with
        encoder := some ⟨.zlib,((stoi (String.ofList level)).map validLevel).or zlevel⟩}}
    | _, _ => s
  | _ => s

def setEncodingOptions (s : Session) (encopts : List String) : Session := encopts.foldl setEncodingOption s

/- The regions' buffers as they are before they are deflated. -/
def sendFrameBufferUpdate (s : Session) (regions : List Bytes) : Session :=
  match s.selection.encoder with
  | some encoder =>
    let rects := sentRects encoder.enc s.stream s.sent regions
    {s with wire := s.wire ++ rects, sent := s.sent + rects.countP fun rect => rect.block.isSome}
  | none => s

def recvUpdateRegion (s : Session) : Session :=
  match s.wire with
  | rect :: rest =>
    {s with wire := rest, read := s.read ++ [rect], client := s.client.recvDecodingUpdateRegion rect}
  | [] => s

end Session

inductive Action
  | message (message : Message)
  | options (encopts : List String)
  | update (regions : List Bytes)
  | receive
  deriving DecidableEq, Repr

def step (config : Config) (s : Session) : Action → Session
  | .message message => s.recvMessage config message
  | .options encopts => s.setEncodingOptions encopts
  | .update regions => s.sendFrameBufferUpdate regions
  | .receive => s.recvUpdateRegion

def start (config : Config) (stream : EncoderStream) : Session := {selection := EncoderSelection.start config stream}

/-! When the two agree. -/

def InEpoch (d : Decoded) : Prop := d.inflated = blocks d.block.stream d.block.index

instance (d : Decoded) : Decidable (InEpoch d) := inferInstanceAs (Decidable (_ = _))

/- The rectangles of the type since the last one of another, the newest first. -/
def sinceOther (type : Encoding) (rects : List SentRect) : List SentRect :=
  rects.reverse.takeWhile fun rect => rect.type = type

/- A block goes out that is the first of its stream, and since the last rectangle of
another type there has been one of an older stream. -/
def Restarts (s : Session) (regions : List Bytes) : Prop :=
  ∃ encoder ∈ s.selection.encoder, s.sent = 0 ∧
    (∃ rect ∈ sentRects encoder.enc s.stream s.sent regions, rect.block.isSome) ∧
    ∃ rect ∈ sinceOther encoder.enc (s.read ++ s.wire), rect.block.isSome

def KeepsStream (s : Session) : Action → Prop
  | .update regions => ¬Restarts s regions
  | _ => True

instance (s : Session) (regions : List Bytes) : Decidable (Restarts s regions) :=
  inferInstanceAs (Decidable (∃ encoder ∈ s.selection.encoder, _))

section
variable {type : Encoding} {stream sent : Nat}

/- Rectangles of one type, with the next blocks of one stream. -/
structure Numbered (type : Encoding) (stream sent : Nat) (rects : List SentRect) : Prop where
  typed : ∀ rect ∈ rects, rect.type = type
  numbered : rects.filterMap SentRect.block =
    (List.range' sent (rects.countP fun rect => rect.block.isSome)).map (Block.mk stream)

theorem blocksSucc (stream count : Nat) : blocks stream (count + 1) = blocks stream count ++ [⟨stream,count⟩] := by
  simp [blocks,List.range_succ]

theorem blocksAppend (stream count more : Nat) :
    blocks stream (count + more) = blocks stream count ++ (List.range' count more).map (Block.mk stream) := by
  rw [blocks,blocks,List.range_eq_range',List.range_eq_range',← List.range'_append_1,Nat.zero_add,List.map_append]

theorem deflateNumbered (type : Encoding) (stream sent : Nat) (regions : List Bytes) :
    Numbered type stream sent (deflateRects type stream sent regions) := by
  induction regions generalizing sent with
  | nil => exact ⟨by simp [deflateRects],rfl⟩
  | cons buf rest ih =>
    cases buf with
    | nil =>
      obtain ⟨typed,numbered⟩ := ih sent
      exact ⟨by simpa [deflateRects] using typed,by simpa [deflateRects] using numbered⟩
    | cons byte bytes =>
      obtain ⟨typed,numbered⟩ := ih (sent + 1)
      refine ⟨by simpa [deflateRects] using typed,?_⟩
      simp [deflateRects,numbered,List.range'_succ]

theorem sentNumbered (type : Encoding) (stream sent : Nat) (regions : List Bytes) :
    Numbered type stream sent (sentRects type stream sent regions) := by
  unfold sentRects
  split
  · exact deflateNumbered ..
  · exact ⟨by simp,by simp⟩

theorem numberedTail {rect : SentRect} {rects : List SentRect} (h : Numbered type stream sent (rect :: rects)) :
    (rect.block = none ∧ Numbered type stream sent rects) ∨
      (rect.block = some ⟨stream,sent⟩ ∧ Numbered type stream (sent + 1) rects) := by
  have typed := fun other inside => h.typed other (List.mem_cons_of_mem rect inside)
  have numbered := h.numbered
  cases same : rect.block with
  | none => exact .inl ⟨rfl,typed,by simpa [same] using numbered⟩
  | some block =>
    simp only [List.filterMap_cons,same,List.countP_cons,Option.isSome_some,if_true,List.range'_succ,
      List.map_cons,List.cons.injEq] at numbered
    exact .inr ⟨congrArg some numbered.1,typed,numbered.2⟩

end

namespace Client

theorem heldRecv (c : Client) (rect : SentRect) (type : Encoding) : (c.recvDecodingUpdateRegion rect).held type =
    if rect.type = type then c.held type ++ rect.block.toList else [] := by
  unfold recvDecodingUpdateRegion
  by_cases same : rect.type = type
  · subst same
    cases rect.block <;> simp [held]
  · cases rect.block <;> simp [held,same,Ne.symm same]

theorem decodedRecv (c : Client) (rect : SentRect) : (c.recvDecodingUpdateRegion rect).decoded =
    c.decoded ++ rect.block.toList.map (Decoded.mk (c.held rect.type)) := by
  unfold recvDecodingUpdateRegion
  cases rect.block <;> simp

theorem recvAppend (c : Client) (one two : List SentRect) :
    c.recvRects (one ++ two) = (c.recvRects one).recvRects two := runAppend ..

/- All decode well exactly if the first of them finds its stream. -/
theorem recvNumbered (c : Client) {type : Encoding} {stream sent : Nat} {rects : List SentRect}
    (h : Numbered type stream sent rects) :
    (c.recvRects rects).held type = c.held type ++ rects.filterMap SentRect.block ∧
      ((∀ d ∈ (c.recvRects rects).decoded, InEpoch d) ↔ (∀ d ∈ c.decoded, InEpoch d) ∧
        ((∃ rect ∈ rects, rect.block.isSome) → c.held type = blocks stream sent)) := by
  induction rects generalizing c sent with
  | nil => simp [recvRects]
  | cons rect rest ih =>
    have typed : rect.type = type := h.typed rect List.mem_cons_self
    have held := heldRecv c rect type
    have decoded := decodedRecv c rect
    rw [if_pos typed] at held
    rw [typed] at decoded
    rcases numberedTail h with ⟨same,tail⟩ | ⟨same,tail⟩
    · obtain ⟨next,good⟩ := ih (c.recvDecodingUpdateRegion rect) tail
      simp only [same,Option.toList_none,List.append_nil,List.map_nil] at held decoded
      rw [held] at next good
      rw [decoded] at good
      exact ⟨by simpa [recvRects,same] using next,by simpa [recvRects,same] using good⟩
    · obtain ⟨next,good⟩ := ih (c.recvDecodingUpdateRegion rect) tail
      simp only [same,Option.toList_some,List.map_cons,List.map_nil] at held decoded
      rw [held] at next good
      -- The later blocks find their stream if the first one did.
      rw [decoded,blocksSucc,List.append_left_inj] at good
      refine ⟨by simpa [recvRects,same] using next,good.trans ?_⟩
      have there : ∃ other ∈ rect :: rest, other.block.isSome := ⟨rect,List.mem_cons_self,by simp [same]⟩
      constructor
      · rintro ⟨all,_⟩
        obtain ⟨old,first⟩ := List.forall_mem_append.mp all
        exact ⟨old,fun _ => first _ List.mem_cons_self⟩
      · rintro ⟨old,first⟩
        have found := first there
        exact ⟨List.forall_mem_append.mpr ⟨old,by simpa [InEpoch] using found⟩,fun _ => found⟩

theorem heldSince (type : Encoding) (rects : List SentRect) :
    (recvRects {} rects).held type = (sinceOther type rects).reverse.filterMap SentRect.block := by
  induction rects using List.reverseRecOn with
  | nil => rfl
  | append_singleton rects rect ih =>
    rw [recvAppend]
    change (recvDecodingUpdateRegion _ rect).held type = _
    rw [heldRecv,ih]
    by_cases same : rect.type = type
    · cases block : rect.block <;> simp [sinceOther,same,block]
    · simp [sinceOther,same]

theorem heldNothing (type : Encoding) (rects : List SentRect) :
    (recvRects {} rects).held type = [] ↔ ¬∃ rect ∈ sinceOther type rects, rect.block.isSome := by
  rw [heldSince,List.filterMap_eq_nil_iff]
  simp

end Client

/- The client, when it has read what is on the way. -/
def outlook (s : Session) : Client := Client.recvRects {} (s.read ++ s.wire)

def AllInEpoch (c : Client) : Prop := ∀ d ∈ c.decoded, InEpoch d

structure Synced (s : Session) : Prop where
  client : s.client = Client.recvRects {} s.read
  held : AllInEpoch (outlook s) → ∀ encoder ∈ s.selection.encoder, 0 < s.sent →
    (outlook s).held encoder.enc = blocks s.stream s.sent

/- What a step leaves that sends and reads nothing. -/
structure Quiet (s next : Session) : Prop where
  read : next.read = s.read
  wire : next.wire = s.wire
  client : next.client = s.client
  stream : next.sent = 0 ∨
    (next.selection.encoder = s.selection.encoder ∧ next.stream = s.stream ∧ next.sent = s.sent)

section
variable {config : Config} {s next : Session}

theorem Quiet.outlook (quiet : Quiet s next) : outlook next = outlook s := by
  rw [DeflateStreams.outlook,quiet.read,quiet.wire,DeflateStreams.outlook]

theorem Quiet.trans {last : Session} (one : Quiet s next) (two : Quiet next last) : Quiet s last where
  read := two.read.trans one.read
  wire := two.wire.trans one.wire
  client := two.client.trans one.client
  stream := by
    rcases two.stream with fresh | ⟨encoder,stream,sent⟩
    · exact .inl fresh
    · rw [encoder,stream,sent]
      exact one.stream

theorem quietSynced (quiet : Quiet s next) (synced : Synced s) : Synced next where
  client := by rw [quiet.client,quiet.read,synced.client]
  held := by
    rw [quiet.outlook]
    intro good encoder there sent
    rcases quiet.stream with fresh | ⟨same,stream,count⟩
    · omega
    · rw [stream,count]
      exact synced.held good encoder (same ▸ there) (count ▸ sent)

theorem messageQuiet (s : Session) (message : Message) : Quiet s (s.recvMessage config message) := by
  cases message with
  | setPixelFormat msg => exact ⟨rfl,rfl,rfl,.inr ⟨rfl,rfl,rfl⟩⟩
  | setEncodings types =>
    unfold Session.recvMessage
    dsimp only
    split
    · exact ⟨rfl,rfl,rfl,.inl rfl⟩
    · rename_i kept
      refine ⟨rfl,rfl,rfl,.inr ⟨?_,rfl,rfl⟩⟩
      have absent := Option.not_isSome_iff_eq_none.mp kept
      change ((s.selection.listEncodings config types).newEncoder config).or _ = _
      rw [absent]
      rfl

theorem optionQuiet (s : Session) (str : String) : Quiet s (s.setEncodingOption str) := by
  unfold Session.setEncodingOption
  split
  · split
    · exact ⟨rfl,rfl,rfl,.inl rfl⟩
    · exact ⟨rfl,rfl,rfl,.inr ⟨rfl,rfl,rfl⟩⟩
  · exact ⟨rfl,rfl,rfl,.inr ⟨rfl,rfl,rfl⟩⟩

theorem optionsQuiet (s : Session) (encopts : List String) : Quiet s (s.setEncodingOptions encopts) := by
  unfold Session.setEncodingOptions
  induction encopts generalizing s with
  | nil => exact ⟨rfl,rfl,rfl,.inr ⟨rfl,rfl,rfl⟩⟩
  | cons str rest ih => exact (optionQuiet s str).trans (ih _)

theorem readSynced (synced : Synced s) : Synced s.recvUpdateRegion ∧ outlook s.recvUpdateRegion = outlook s := by
  unfold Session.recvUpdateRegion
  split
  · rename_i rect rest way
    have same : s.read ++ [rect] ++ rest = s.read ++ s.wire := by rw [way,List.append_assoc,List.singleton_append]
    refine ⟨⟨?_,?_⟩,?_⟩
    · rw [Client.recvAppend,← synced.client]
      rfl
    · rw [outlook,same]
      exact synced.held
    · rw [outlook,same,outlook]
  · exact ⟨synced,rfl⟩

theorem updateOutlook {encoder : Encoder} (there : s.selection.encoder = some encoder) (regions : List Bytes) :
    outlook (s.sendFrameBufferUpdate regions) =
      (outlook s).recvRects (sentRects encoder.enc s.stream s.sent regions) := by
  unfold Session.sendFrameBufferUpdate
  rw [there,outlook,outlook,← List.append_assoc,Client.recvAppend]

/- The rule for one update. -/
theorem updateGood (synced : Synced s) (regions : List Bytes) :
    AllInEpoch (outlook (s.sendFrameBufferUpdate regions)) ↔ AllInEpoch (outlook s) ∧ ¬Restarts s regions := by
  cases there : s.selection.encoder with
  | none =>
    have idle : s.sendFrameBufferUpdate regions = s := by simp [Session.sendFrameBufferUpdate,there]
    have quiet : ¬Restarts s regions := fun ⟨encoder,inside,_⟩ => by simp [there] at inside
    rw [idle]
    exact (and_iff_left quiet).symm
  | some encoder =>
    rw [updateOutlook there]
    obtain ⟨_,good⟩ := (outlook s).recvNumbered (sentNumbered encoder.enc s.stream s.sent regions)
    refine good.trans (and_congr_right fun old => ?_)
    have restarts : Restarts s regions ↔ s.sent = 0 ∧
        (∃ rect ∈ sentRects encoder.enc s.stream s.sent regions, rect.block.isSome) ∧
        (outlook s).held encoder.enc ≠ [] := by
      rw [Restarts,there,outlook,ne_eq,Client.heldNothing,not_not]
      simp
    rw [restarts]
    rcases Nat.eq_zero_or_pos s.sent with fresh | further
    · have first : blocks s.stream s.sent = [] := by rw [fresh]; rfl
      rw [first]
      simp only [fresh,true_and,ne_eq,not_and,not_not]
    · have found := synced.held old encoder there further
      simp [found,further.ne']

theorem updateSynced (synced : Synced s) (regions : List Bytes) : Synced (s.sendFrameBufferUpdate regions) := by
  cases there : s.selection.encoder with
  | none =>
    have idle : s.sendFrameBufferUpdate regions = s := by simp [Session.sendFrameBufferUpdate,there]
    rwa [idle]
  | some encoder =>
    let rects := sentRects encoder.enc s.stream s.sent regions
    have numbered : Numbered encoder.enc s.stream s.sent rects := sentNumbered ..
    have sends : s.sendFrameBufferUpdate regions =
        {s with wire := s.wire ++ rects, sent := s.sent + rects.countP fun rect => rect.block.isSome} := by
      rw [Session.sendFrameBufferUpdate,there]
    obtain ⟨next,good⟩ := (outlook s).recvNumbered numbered
    refine ⟨by rw [sends]; exact synced.client,?_⟩
    rw [updateOutlook there,sends]
    intro all other same sent
    cases Option.some.inj (there.symm.trans same)
    obtain ⟨old,first⟩ := good.mp all
    have found : (outlook s).held encoder.enc = blocks s.stream s.sent := by
      rcases Nat.eq_zero_or_pos s.sent with fresh | further
      · have more : 0 < rects.countP fun rect => rect.block.isSome := by simpa [fresh] using sent
        exact first (List.countP_pos_iff.mp more)
      · exact synced.held old encoder there further
    change ((outlook s).recvRects rects).held encoder.enc = blocks s.stream (s.sent + _)
    rw [next,found,blocksAppend,numbered.numbered]

theorem stepSynced (s : Session) (action : Action) (synced : Synced s) : Synced (step config s action) := by
  cases action with
  | message message => exact quietSynced (messageQuiet s message) synced
  | options encopts => exact quietSynced (optionsQuiet s encopts) synced
  | update regions => exact updateSynced synced regions
  | receive => exact (readSynced synced).1

theorem stepGood (s : Session) (action : Action) (synced : Synced s) :
    AllInEpoch (outlook (step config s action)) ↔ AllInEpoch (outlook s) ∧ KeepsStream s action := by
  cases action with
  | message message =>
    rw [step,(messageQuiet s message).outlook]
    exact (and_iff_left trivial).symm
  | options encopts =>
    rw [step,(optionsQuiet s encopts).outlook]
    exact (and_iff_left trivial).symm
  | update regions => exact updateGood synced regions
  | receive =>
    rw [step,(readSynced synced).2]
    exact (and_iff_left trivial).symm

theorem startSynced (config : Config) (stream : EncoderStream) : Synced (start config stream) :=
  ⟨rfl,fun _ _ _ sent => absurd sent (Nat.lt_irrefl 0)⟩

theorem runSynced (config : Config) (stream : EncoderStream) (actions : List Action) :
    Synced (run (step config) (start config stream) actions) :=
  runInvariant stepSynced (startSynced config stream) actions

theorem outlookGoodIff (config : Config) (stream : EncoderStream) (actions : List Action) :
    AllInEpoch (outlook (run (step config) (start config stream) actions)) ↔
      Meets (step config) KeepsStream (start config stream) actions := by
  have good : AllInEpoch (outlook (start config stream)) := fun _ inside => by cases inside
  exact (meetsIff (Q := fun s => AllInEpoch (outlook s)) stepSynced stepGood (startSynced config stream)
    actions).trans (and_iff_right good)

theorem receiveAll (config : Config) (s : Session) :
    (run (step config) s (List.replicate s.wire.length .receive)).wire = [] := by
  generalize way : s.wire = wire
  induction wire generalizing s with
  | nil => exact way
  | cons rect rest ih =>
    refine ih (step config s .receive) ?_
    simp [step,Session.recvUpdateRegion,way]

theorem meetsReceive (s : Session) (later : Nat) :
    Meets (step config) KeepsStream s (List.replicate later .receive) := by
  induction later generalizing s with
  | zero => trivial
  | succ later ih => exact ⟨trivial,ih _⟩

theorem decodedOutlook (synced : Synced s) : s.client.decoded <+: (outlook s).decoded := by
  rw [outlook,Client.recvAppend,← synced.client]
  generalize s.wire = wire, s.client = client
  induction wire generalizing client with
  | nil => exact List.prefix_rfl
  | cons rect rest ih =>
    refine List.IsPrefix.trans ?_ (ih (client.recvDecodingUpdateRegion rect))
    rw [Client.decodedRecv]
    exact List.prefix_append _ _

theorem outlookRead (synced : Synced s) (read : s.wire = []) : outlook s = s.client := by
  rw [outlook,read,List.append_nil,synced.client]

end

/- However much of what is on the way is read after a run, each block is inflated by the
blocks of its own stream before it, exactly if no update starts a stream where the client
goes on with one. -/
theorem epochsAgreeIff (config : Config) (stream : EncoderStream) (actions : List Action) :
    (∀ later, AllInEpoch (run (step config) (start config stream)
        (actions ++ List.replicate later .receive)).client) ↔
      Meets (step config) KeepsStream (start config stream) actions := by
  constructor
  · intro all
    have last := all (run (step config) (start config stream) actions).wire.length
    have empty := receiveAll config (run (step config) (start config stream) actions)
    rw [← runAppend] at empty
    have good := outlookRead (runSynced config stream _) empty ▸ last
    exact (meetsAppend.mp ((outlookGoodIff config stream _).mp good)).1
  · intro meets later d inside
    have further := meetsAppend.mpr ⟨meets,meetsReceive _ later⟩
    have good := (outlookGoodIff config stream _).mpr further
    exact good d ((decodedOutlook (runSynced config stream _)).subset inside)

/-! A level that is set between two updates; and a type that is left and taken again with
no rectangle of the other between. -/

def levelSet : List Action :=
  [.message (.setEncodings [Encoding.type .zlib]),.update [[1]],.options ["zlev:5"],.update [[2]],.receive,.receive]

def typeTakenAgain : List Action :=
  [.message (.setEncodings [Encoding.type .zrle]),.update [[1]],.message (.setEncodings [Encoding.type .raw]),
    .message (.setEncodings [Encoding.type .zrle]),.update [[2]],.receive,.receive]

theorem streamsApart :
    (run (step usualConfig) (start usualConfig usualStream) levelSet).client.decoded =
        [⟨[],⟨1,0⟩⟩,⟨[⟨1,0⟩],⟨2,0⟩⟩] ∧
      ¬AllInEpoch (run (step usualConfig) (start usualConfig usualStream) levelSet).client ∧
    (run (step usualConfig) (start usualConfig usualStream) typeTakenAgain).client.decoded =
        [⟨[],⟨1,0⟩⟩,⟨[⟨1,0⟩],⟨3,0⟩⟩] ∧
      ¬AllInEpoch (run (step usualConfig) (start usualConfig usualStream) typeTakenAgain).client := by
  unfold AllInEpoch
  decide +kernel

end Ltsm.DeflateStreams
