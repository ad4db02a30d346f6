import Ltsm.ChannelTypes
import Ltsm.ZLibBlocks
import Ltsm.Library.Run

/-! The loops of a connector over a descriptor: one reads it and sends what it read, the
other writes the frames that were pushed. What the descriptor answers comes with each turn. -/
namespace Ltsm.ChannelStreams
open Channel Library ZLibBlocks

/- The end a connector belongs to: the client moves the buffer it is to send, the server
sends from it and leaves it as it is. -/
inductive Owner | server | client
  deriving DecidableEq, Repr

structure Opened where
  owner : Owner
  speed : Speed
  zlib : Bool
  deriving DecidableEq, Repr

/- Local2Remote::setSpeed. -/
def blocksz : Speed → Nat
  | .verySlow => 8192
  | .slow | .medium => 16384
  | .fast | .ultraFast | .ultra5 => 32768

/- The answers of a descriptor: how much it says there is, or that asking failed, and what
a read of that then gives. -/
inductive ReadResult
  | bytes (data : Bytes)
  | again
  | failed
  deriving DecidableEq, Repr

inductive Polled
  | threw
  | ready (dtsz : Nat) (read : ReadResult)
  deriving DecidableEq, Repr

/- The bytes taken are one more than `more`, as far as there are so many. -/
inductive WriteResult
  | accepted (more : Nat)
  | again
  | failed
  deriving DecidableEq, Repr

/- `blocks` and `pushed` are what was read and what was pushed so far, oldest first. -/
structure Pump where
  running : Bool := true
  reading : Bool := true
  writing : Bool := true
  buf : Bytes := []
  sent : List Bytes := []
  blocks : List Bytes := []
  queue : List Bytes := []
  rest : Bytes := []
  pushed : List Bytes := []
  written : Bytes := []
  deriving DecidableEq, Repr

/- std::vector::resize. -/
def resize (size : Nat) (buf : Bytes) : Bytes := buf.take size ++ List.replicate (size - buf.length) 0

section
variable (z : ZLib) (o : Opened)

def encode (block : Bytes) : Bytes := if o.zlib then z.deflateData block else block

def decode (frame : Bytes) : Option Bytes := if o.zlib then z.inflateData frame else some frame

/- Local2Remote::readData. -/
def readData (polled : Polled) (s : Pump) : Bool × Pump :=
  match polled with
  | .threw => (false,s)
  | .ready 0 _ => (true,{s with buf := []})
  | .ready dtsz read =>
    let size := min dtsz (blocksz o.speed)
    let buf := resize size s.buf
    match read with
    | .bytes data =>
      let block := data.take size
      if block = [] then (false,{s with buf})
      else (true,{s with buf := encode z o block, blocks := s.blocks ++ [block]})
    | .again => (true,{s with buf := []})
    | .failed => (false,{s with buf})

/- sendLtsmChannelData. -/
def sendBuf (s : Pump) : Pump :=
  if s.buf = [] then s
  else {s with sent := s.sent ++ [s.buf], buf := if o.owner = .client then [] else s.buf}

def readerTurn (polled : Polled) (s : Pump) : Pump :=
  if s.reading = false then s
  else if s.running = false then {s with reading := false}
  else
    let (ok,s) := readData z o polled s
    sendBuf o (if ok then s else {s with running := false})

def pushData (frame : Bytes) (s : Pump) : Pump :=
  if frame = [] then s else {s with queue := s.queue ++ [frame], pushed := s.pushed ++ [frame]}

/- The next frame, or the end of a loop that was stopped. A frame that does not inflate
throws in the thread and with it the program ends. -/
def popFrame (s : Pump) : Pump :=
  match s.queue with
  | [] => if s.running then s else {s with writing := false}
  | frame :: queue =>
    match decode z o frame with
    | some rest => {s with queue, rest}
    | none => {s with queue, running := false, reading := false, writing := false}

/- One write of Remote2Local::writeData, or what comes between two frames. -/
def writerTurn (write : WriteResult) (s : Pump) : Pump :=
  if s.writing = false then s
  else if s.rest = [] then popFrame z o s
  else match write with
    | .accepted more =>
      {s with written := s.written ++ s.rest.take (more + 1), rest := s.rest.drop (more + 1)}
    | .again => s
    | .failed => {s with running := false, writing := false}

inductive Action
  | read (polled : Polled)
  | write (write : WriteResult)
  | push (frame : Bytes)
  | stop

def step (s : Pump) : Action → Pump
  | .read polled => readerTurn z o polled s
  | .write write => writerTurn z o write s
  | .push frame => pushData frame s
  | .stop => {s with running := false}

/- What was sent is what was read, as sent over and as the other end gets it. -/
structure SendsRead (s : Pump) : Prop where
  sent : s.sent.flatten = (s.blocks.map (encode z o)).flatten
  got : s.sent.mapM (decode z o) = some s.blocks

def content (frames : List Bytes) : Bytes := (frames.map fun frame => (decode z o frame).getD []).flatten

/- A read that was promised data brings some, and asking does not fail with a block in the
buffer that was sent already. -/
def Clean (s : Pump) : Action → Prop
  | .read polled => s.reading = true → s.running = true →
    match polled with
    | .threw => s.buf = []
    | .ready dtsz read => dtsz = 0 ∨ read ≠ .failed ∧ read ≠ .bytes []
  | _ => True
instance (s a) : Decidable (Clean s a) := by
  unfold Clean
  cases a with
  | read polled => cases polled <;> infer_instance
  | _ => infer_instance

/-! What was sent is the blocks, until the turn that ends the reader. -/

structure InStep (s : Pump) : Prop where
  sent : s.sent = s.blocks.map (encode z o) ∨
    s.running = false ∧ ∃ stale, stale ≠ [] ∧ s.sent = s.blocks.map (encode z o) ++ [stale]
  filled : ∀ block ∈ s.blocks, block ≠ []

variable {z o} {s : Pump}

theorem encodeFilled (lossless : z.Lossless) {block : Bytes} (filled : block ≠ []) : encode z o block ≠ [] := by
  unfold encode
  split
  · exact fun empty => filled ((ZLib.deflateEmpty lossless).mp empty)
  · exact filled

theorem decodeEncode (lossless : z.Lossless) (block : Bytes) : decode z o (encode z o block) = some block := by
  unfold decode encode
  split
  · exact ZLib.inflateDeflate lossless block
  · rfl

theorem sendsReadIff (lossless : z.Lossless) (inStep : InStep z o s) :
    SendsRead z o s ↔ s.sent = s.blocks.map (encode z o) := by
  constructor
  · intro sends
    rcases inStep.sent with same | ⟨_,stale,filled,extra⟩
    · exact same
    · have longer := congrArg List.length sends.sent
      rw [extra,List.flatten_append,List.length_append] at longer
      have positive := List.length_pos_of_ne_nil filled
      simp only [List.flatten_cons,List.flatten_nil,List.append_nil] at longer
      omega
  · intro same
    refine ⟨by rw [same],?_⟩
    have each : ∀ block ∈ s.blocks, (decode z o ∘ encode z o) block = some (id block) :=
      fun block _ => decodeEncode lossless block
    rw [same,List.mapM_map,mapMSome each,List.map_id]

theorem blockszPositive (speed : Speed) : 0 < blocksz speed := by
  cases speed <;> decide

theorem resizeFilled {size : Nat} (positive : 0 < size) (buf : Bytes) : resize size buf ≠ [] := by
  refine List.ne_nil_of_length_pos ?_
  simp only [resize,List.length_append,List.length_take,List.length_replicate]
  omega

theorem sendBufEmpty (empty : s.buf = []) : sendBuf o s = s := if_pos empty

theorem sendBufFilled (filled : s.buf ≠ []) : (sendBuf o s).sent = s.sent ++ [s.buf] ∧
    (sendBuf o s).blocks = s.blocks ∧ (sendBuf o s).running = s.running := by
  rw [sendBuf,if_neg filled]
  exact ⟨rfl,rfl,rfl⟩

/- A turn that sends nothing or the block it read. -/
inductive Fair (z : ZLib) (o : Opened) (s t : Pump) : Prop
  | nothing (sent : t.sent = s.sent) (blocks : t.blocks = s.blocks)
  | block (block : Bytes) (filled : block ≠ []) (sent : t.sent = s.sent ++ [encode z o block])
      (blocks : t.blocks = s.blocks ++ [block])

/- A last turn, which sends what else the buffer holds. -/
structure Stale (s t : Pump) : Prop where
  sent : ∃ stale, stale ≠ [] ∧ t.sent = s.sent ++ [stale]
  blocks : t.blocks = s.blocks
  running : t.running = false

theorem sendStale {t : Pump} (filled : t.buf ≠ []) (sent : t.sent = s.sent) (blocks : t.blocks = s.blocks)
    (running : t.running = false) : Stale s (sendBuf o t) := by
  obtain ⟨sent',blocks',running'⟩ := sendBufFilled (o := o) filled
  exact ⟨⟨t.buf,filled,sent'.trans (by rw [sent])⟩,blocks'.trans blocks,running'.trans running⟩

theorem turnRuns (polled : Polled) (reading : s.reading = true) (running : s.running = true) :
    readerTurn z o polled s = sendBuf o (if (readData z o polled s).1 then (readData z o polled s).2
      else {(readData z o polled s).2 with running := false}) := by
  unfold readerTurn
  rw [if_neg (by simp [reading]),if_neg (by simp [running])]

theorem cleanTurn (lossless : z.Lossless) {polled : Polled} (reading : s.reading = true)
    (running : s.running = true) (clean : Clean s (.read polled)) : Fair z o s (readerTurn z o polled s) := by
  have fine := clean reading running
  rw [turnRuns polled reading running]
  cases polled with
  | threw =>
    simp only [readData,Bool.false_eq_true,if_false]
    have same := sendBufEmpty (o := o) (s := {s with running := false}) fine
    rw [same]
    exact .nothing rfl rfl
  | ready dtsz read =>
    cases dtsz with
    | zero =>
      simp only [readData,if_true]
      rw [sendBufEmpty rfl]
      exact .nothing rfl rfl
    | succ n =>
      obtain ⟨answered,filled⟩ := fine.resolve_left (Nat.succ_ne_zero n)
      have positive : 0 < min (n + 1) (blocksz o.speed) := Nat.lt_min.mpr ⟨Nat.succ_pos n,blockszPositive o.speed⟩
      cases read with
      | bytes data =>
        have block : data.take (min (n + 1) (blocksz o.speed)) ≠ [] := by
          intro empty
          rcases List.take_eq_nil_iff.mp empty with none_ | none_
          · omega
          · exact filled (congrArg ReadResult.bytes none_)
        simp only [readData,if_neg block,if_true]
        obtain ⟨sent,blocks,_⟩ := sendBufFilled (o := o)
          (s := {s with
            buf := encode z o (data.take (min (n + 1) (blocksz o.speed)))
            blocks := s.blocks ++ [data.take (min (n + 1) (blocksz o.speed))]}) (encodeFilled lossless block)
        exact .block _ block sent blocks
      | again =>
        simp only [readData,if_true]
        rw [sendBufEmpty rfl]
        exact .nothing rfl rfl
      | failed => exact absurd rfl answered

theorem uncleanTurn {polled : Polled} (reading : s.reading = true) (running : s.running = true)
    (unclean : ¬Clean s (.read polled)) : Stale s (readerTurn z o polled s) := by
  have bad := fun fine => unclean fun _ _ => fine
  rw [turnRuns polled reading running]
  cases polled with
  | threw =>
    simp only [readData,Bool.false_eq_true,if_false]
    exact sendStale bad rfl rfl rfl
  | ready dtsz read =>
    cases dtsz with
    | zero => exact absurd (.inl rfl) bad
    | succ n =>
      have positive : 0 < min (n + 1) (blocksz o.speed) := Nat.lt_min.mpr ⟨Nat.succ_pos n,blockszPositive o.speed⟩
      cases read with
      | bytes data =>
        have empty : data = [] := by
          by_contra filled
          exact bad (.inr ⟨by simp,by simpa using filled⟩)
        simp only [readData,empty,List.take_nil,if_true,Bool.false_eq_true,if_false]
        exact sendStale (resizeFilled positive s.buf) rfl rfl rfl
      | again => exact absurd (.inr ⟨by simp,by simp⟩) bad
      | failed =>
        simp only [readData,Bool.false_eq_true,if_false]
        exact sendStale (resizeFilled positive s.buf) rfl rfl rfl

/- What is not a reader's turn leaves what was sent, and does not start the loops again. -/
theorem otherTurns {a : Action} (other : ∀ polled, a ≠ .read polled) :
    (step z o s a).sent = s.sent ∧ (step z o s a).blocks = s.blocks ∧
      ((step z o s a).running = true → s.running = true) := by
  cases a with
  | read polled => exact absurd rfl (other polled)
  | write write =>
    show (writerTurn z o write s).sent = _ ∧ (writerTurn z o write s).blocks = _ ∧
      ((writerTurn z o write s).running = true → _)
    unfold writerTurn popFrame
    split
    · exact ⟨rfl,rfl,id⟩
    split
    · split
      · split <;> exact ⟨rfl,rfl,id⟩
      · split
        · exact ⟨rfl,rfl,id⟩
        · exact ⟨rfl,rfl,fun running => by simp at running⟩
    · split
      · exact ⟨rfl,rfl,id⟩
      · exact ⟨rfl,rfl,id⟩
      · exact ⟨rfl,rfl,fun running => by simp at running⟩
  | push frame =>
    show (pushData frame s).sent = _ ∧ (pushData frame s).blocks = _ ∧ ((pushData frame s).running = true → _)
    unfold pushData
    split <;> exact ⟨rfl,rfl,id⟩
  | stop => exact ⟨rfl,rfl,fun running => by simp [step] at running⟩

/- A turn of a reader that has ended, or ends now. -/
theorem idleTurn (polled : Polled) (idle : ¬(s.reading = true ∧ s.running = true)) :
    (readerTurn z o polled s).sent = s.sent ∧ (readerTurn z o polled s).blocks = s.blocks ∧
      (readerTurn z o polled s).running = s.running := by
  unfold readerTurn
  split
  · exact ⟨rfl,rfl,rfl⟩
  split
  · exact ⟨rfl,rfl,rfl⟩
  · rename_i reading running
    exact absurd ⟨by simpa using reading,by simpa using running⟩ idle

theorem cleanOther {a : Action} (other : ∀ polled, a ≠ .read polled) : Clean s a := by
  cases a with
  | read polled => exact absurd rfl (other polled)
  | _ => trivial

/- What a step does to what was sent. -/
inductive Turn (z : ZLib) (o : Opened) (s : Pump) (a : Action) (t : Pump) : Prop
  | idle (clean : Clean s a) (sent : t.sent = s.sent) (blocks : t.blocks = s.blocks)
      (running : t.running = true → s.running = true)
  | fair (clean : Clean s a) (running : s.running = true) (fair : Fair z o s t)
  | stale (unclean : ¬Clean s a) (running : s.running = true) (stale : Stale s t)

theorem stepTurn (lossless : z.Lossless) (s : Pump) (a : Action) : Turn z o s a (step z o s a) := by
  by_cases reads : ∃ polled, a = .read polled
  · obtain ⟨polled,rfl⟩ := reads
    by_cases active : s.reading = true ∧ s.running = true
    · by_cases clean : Clean s (.read polled)
      · exact .fair clean active.2 (cleanTurn lossless active.1 active.2 clean)
      · exact .stale clean active.2 (uncleanTurn active.1 active.2 clean)
    · obtain ⟨sent,blocks,running⟩ := idleTurn (z := z) (o := o) polled active
      exact .idle (fun reading on => absurd ⟨reading,on⟩ active) sent blocks fun on => running ▸ on
  · have other := fun polled same => reads ⟨polled,same⟩
    obtain ⟨sent,blocks,running⟩ := otherTurns (z := z) (o := o) (s := s) other
    exact .idle (cleanOther other) sent blocks running

/- While the loops run, nothing stale was sent. -/
theorem inStepRunning (inStep : InStep z o s) (running : s.running = true) :
    s.sent = s.blocks.map (encode z o) :=
  inStep.sent.resolve_right fun bad => by simp [running] at bad

theorem stepInStep (lossless : z.Lossless) (s : Pump) (a : Action) (inStep : InStep z o s) :
    InStep z o (step z o s a) := by
  cases stepTurn (o := o) lossless s a with
  | idle _ sent blocks running =>
    refine ⟨?_,blocks ▸ inStep.filled⟩
    rw [sent,blocks]
    refine inStep.sent.imp_right fun ⟨stopped,stale⟩ => ⟨?_,stale⟩
    exact Bool.eq_false_iff.mpr fun on => by simp [running on] at stopped
  | fair _ running fair =>
    have same := inStepRunning inStep running
    cases fair with
    | nothing sent blocks => exact ⟨.inl (by rw [sent,blocks,same]),by rw [blocks]; exact inStep.filled⟩
    | block block filled sent blocks =>
      refine ⟨.inl (by rw [sent,blocks,same,List.map_append]; rfl),?_⟩
      rw [blocks]
      intro b inside
      rcases List.mem_append.mp inside with old | new
      · exact inStep.filled b old
      · exact List.mem_singleton.mp new ▸ filled
  | stale _ running stale =>
    obtain ⟨⟨stale,filled,sent⟩,blocks,stopped⟩ := stale
    refine ⟨.inr ⟨stopped,stale,filled,?_⟩,by rw [blocks]; exact inStep.filled⟩
    rw [sent,blocks,inStepRunning inStep running]

theorem stepSent (lossless : z.Lossless) (s : Pump) (a : Action) (inStep : InStep z o s) :
    (step z o s a).sent = (step z o s a).blocks.map (encode z o) ↔
      s.sent = s.blocks.map (encode z o) ∧ Clean s a := by
  cases stepTurn (o := o) lossless s a with
  | idle clean sent blocks _ =>
    rw [sent,blocks]
    exact (and_iff_left clean).symm
  | fair clean running fair =>
    have same := inStepRunning inStep running
    refine iff_of_true ?_ ⟨same,clean⟩
    cases fair with
    | nothing sent blocks => rw [sent,blocks,same]
    | block block _ sent blocks =>
      rw [sent,blocks,same,List.map_append]
      rfl
  | stale unclean running stale =>
    obtain ⟨⟨stale,_,sent⟩,blocks,_⟩ := stale
    refine iff_of_false ?_ fun both => unclean both.2
    rw [sent,blocks,inStepRunning inStep running]
    exact fun equal => by simpa using congrArg List.length equal

/-! What was written is the beginning of what was pushed, and while the writer lives the
rest of it is still to be written. -/

structure InOrder (z : ZLib) (o : Opened) (s : Pump) : Prop where
  begun : s.written <+: content z o s.pushed
  whole : s.writing = true → s.written ++ s.rest ++ content z o s.queue = content z o s.pushed

theorem contentAppend (first rest : List Bytes) :
    content z o (first ++ rest) = content z o first ++ content z o rest := by
  rw [content,List.map_append,List.flatten_append]
  rfl

theorem pushOrder (frame : Bytes) (inOrder : InOrder z o s) : InOrder z o (pushData frame s) := by
  unfold pushData
  split
  · exact inOrder
  · refine ⟨?_,fun writing => ?_⟩
    · show s.written <+: content z o (s.pushed ++ [frame])
      rw [contentAppend]
      exact inOrder.begun.trans (List.prefix_append _ _)
    · show s.written ++ s.rest ++ content z o (s.queue ++ [frame]) = content z o (s.pushed ++ [frame])
      rw [contentAppend,contentAppend,← List.append_assoc,inOrder.whole writing]

theorem popOrder (writing : s.writing = true) (empty : s.rest = []) (inOrder : InOrder z o s) :
    InOrder z o (popFrame z o s) := by
  have whole := inOrder.whole writing
  unfold popFrame
  cases queued : s.queue with
  | nil =>
    dsimp only
    split
    · exact inOrder
    · exact ⟨inOrder.begun,fun off => by simp at off⟩
  | cons frame queue =>
    dsimp only
    cases decoded : decode z o frame with
    | none => exact ⟨inOrder.begun,fun off => by simp at off⟩
    | some rest =>
      refine ⟨inOrder.begun,fun _ => ?_⟩
      rw [queued,empty,List.append_nil] at whole
      have first : content z o (frame :: queue) = rest ++ content z o queue := by
        simp [content,decoded]
      rw [first,← List.append_assoc] at whole
      exact whole

theorem writeOrder (write : WriteResult) (inOrder : InOrder z o s) : InOrder z o (writerTurn z o write s) := by
  unfold writerTurn
  split
  · exact inOrder
  rename_i on
  have writing : s.writing = true := by simpa using on
  split
  · rename_i empty
    exact popOrder writing empty inOrder
  cases write with
  | again => exact inOrder
  | failed => exact ⟨inOrder.begun,fun off => by simp at off⟩
  | accepted more =>
    have whole := inOrder.whole writing
    have moved : s.written ++ s.rest.take (more + 1) ++ s.rest.drop (more + 1) ++ content z o s.queue =
        content z o s.pushed := by
      rw [List.append_assoc s.written,List.take_append_drop]
      exact whole
    refine ⟨?_,fun _ => moved⟩
    show s.written ++ s.rest.take (more + 1) <+: content z o s.pushed
    rw [← moved,List.append_assoc (s.written ++ s.rest.take (more + 1))]
    exact List.prefix_append _ _

theorem readOrder (polled : Polled) (inOrder : InOrder z o s) : InOrder z o (readerTurn z o polled s) := by
  have sends (t : Pump) (kept : InOrder z o t) : InOrder z o (sendBuf o t) := by
    unfold sendBuf
    split
    · exact kept
    · exact ⟨kept.begun,kept.whole⟩
  have reads : InOrder z o (readData z o polled s).2 := by
    unfold readData
    split
    · exact inOrder
    · exact ⟨inOrder.begun,inOrder.whole⟩
    · dsimp only
      split
      · split <;> exact ⟨inOrder.begun,inOrder.whole⟩
      · exact ⟨inOrder.begun,inOrder.whole⟩
      · exact ⟨inOrder.begun,inOrder.whole⟩
  unfold readerTurn
  split
  · exact inOrder
  split
  · exact ⟨inOrder.begun,inOrder.whole⟩
  generalize readData z o polled s = answer at reads
  obtain ⟨ok,t⟩ := answer
  cases ok with
  | true => exact sends t reads
  | false => exact sends _ ⟨reads.begun,reads.whole⟩

theorem stepOrder (s : Pump) (a : Action) (inOrder : InOrder z o s) : InOrder z o (step z o s a) := by
  cases a with
  | read polled => exact readOrder polled inOrder
  | write write => exact writeOrder write inOrder
  | push frame => exact pushOrder frame inOrder
  | stop => exact ⟨inOrder.begun,inOrder.whole⟩

end

/- Frames are written in order in every run; what was read is sent as it is in exactly the
runs whose reads are clean. -/
theorem streamFidelityIff (z : ZLib) (o : Opened) (lossless : z.Lossless) (actions : List Action) :
    (SendsRead z o (run (step z o) {} actions) ∧
        (run (step z o) {} actions).written <+: content z o (run (step z o) {} actions).pushed) ↔
      Meets (step z o) Clean {} actions := by
  have start : InStep z o {} := ⟨.inl rfl,by simp⟩
  have inStep := runInvariant (stepInStep lossless) start actions
  have inOrder := runInvariant (P := InOrder z o) (s := {}) stepOrder ⟨List.prefix_rfl,fun _ => rfl⟩ actions
  rw [and_iff_left inOrder.begun,sendsReadIff lossless inStep]
  have carried := meetsIff (Q := fun s : Pump => s.sent = s.blocks.map (encode z o)) (stepInStep lossless)
    (stepSent lossless) start actions
  exact carried.trans (and_iff_right rfl)

/- zlib's answer for one A at the level of the channels. -/
def zipA : ZLib := ZLib.recorded [65] [0x78,0x5e,0x73,0x04,0x00,0x00,0x42,0x00,0x42]

theorem zipLossless : zipA.Lossless := ZLib.recordedLossless _ (by decide)

def readAndWrite : List Action :=
  [.read (.ready 1 (.bytes [65])),.read (.ready 0 .again),.push (zipA.deflate [65]),.write .again,
    .write (.accepted 0),.stop]

theorem blockCarried : SendsRead zipA ⟨.server,.fast,true⟩
      (run (step zipA ⟨.server,.fast,true⟩) {} readAndWrite) ∧
    (run (step zipA ⟨.server,.fast,true⟩) {} readAndWrite).written <+: content zipA ⟨.server,.fast,true⟩
      (run (step zipA ⟨.server,.fast,true⟩) {} readAndWrite).pushed :=
  (streamFidelityIff zipA ⟨.server,.fast,true⟩ zipLossless readAndWrite).mpr (by decide +kernel)

/- Two bytes are waiting when the read of them finds the end of the file. -/
theorem staleBytesSent : ¬∀ z o, z.Lossless → ∀ actions, SendsRead z o (run (step z o) {} actions) ∧
    (run (step z o) {} actions).written <+: content z o (run (step z o) {} actions).pushed := by
  intro claim
  have sends := (claim zipA ⟨.server,.fast,false⟩ zipLossless
    [.read (.ready 1 (.bytes [65])),.read (.ready 2 (.bytes []))]).1.sent
  exact absurd sends (by decide +kernel)

end Ltsm.ChannelStreams
