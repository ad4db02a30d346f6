import Ltsm.ExtClipboard
import Ltsm.Library.Run
import Mathlib.Data.List.Sort

/-! Requests and the Provide messages that answer them. A peer may answer with any
formats at any time; the program takes each answer for what it has asked for so far. -/
namespace Ltsm.ClipboardMatching
open Library PixelStreams ZLibBlocks ExtClipboard UpdateMessages

def formatFlags (bits : List Nat) : Nat := bits.foldr (fun bit flags => (1 <<< bit) ||| flags) 0

def stream (formats : List (Nat × Bytes)) : Bytes := formats.flatMap fun f => sendIntBE32 f.2.length ++ f.2

/- A Provide message of a peer: each format once, lowest bit first, with its data. -/
structure Provide (z : ZLib) where
  formats : List (Nat × Bytes)
  sorted : (formats.map Prod.fst).Pairwise (· < ·)
  known : ∀ f ∈ formats, f.1 < 16
  small : ∀ f ∈ formats, f.2.length < 4294967296
  fits : (z.deflateData (stream formats)).length < 4294967296

def Provide.bits {z : ZLib} (p : Provide z) : List Nat := p.formats.map Prod.fst

def Provide.message {z : ZLib} (p : Provide z) : Bytes :=
  let zip := z.deflateData (stream p.formats)
  sendIntBE32 (ExtClipCaps.opProvide.flag ||| formatFlags p.bits) ++ (sendIntBE32 zip.length ++ zip)

/- The formats asked for and not yet received. -/
def outstanding (clip : ExtClip) : List Nat := (List.range 32).filter (clip.localProvideTypes.testBit ·)

structure Received (z : ZLib) where
  provide : Provide z
  out : Outcome

/- The data was cut up by the formats of the message, and no pair is another's. -/
structure ParsedByOwnFormats {z : ZLib} (r : Received z) : Prop where
  whole : r.out.threw = false
  formats : r.out.delivered.map Prod.fst = r.provide.bits
  sent : ∀ pair ∈ r.out.delivered, pair ∈ r.provide.formats

/- Data of length zero is read as all that is left. -/
def OnlyLastEmpty : List (Nat × Bytes) → Prop
  | [] => True
  | (_,data) :: rest => (data = [] → rest = []) ∧ OnlyLastEmpty rest

instance decidableOnlyLastEmpty : (formats : List (Nat × Bytes)) → Decidable (OnlyLastEmpty formats)
  | [] => isTrue trivial
  | (_,data) :: rest =>
    have := decidableOnlyLastEmpty rest
    inferInstanceAs (Decidable ((data = [] → rest = []) ∧ OnlyLastEmpty rest))

/- The program may take Provide messages, and what it waits for is what this one holds. -/
def Matched (clip : ExtClip) {z : ZLib} (p : Provide z) : Prop :=
  allows clip.localFlags .opProvide = true ∧ (p.formats = [] ∨
    clip.remoteFlags ≠ 0 ∧ outstanding clip = p.bits ∧ OnlyLastEmpty p.formats)

instance (clip : ExtClip) {z : ZLib} (p : Provide z) : Decidable (Matched clip p) := by
  unfold Matched; infer_instance

/-! What the loop makes of a stream, apart from the state it goes through. -/

def parse : List Nat → Bytes → Option (List (Nat × Bytes))
  | [],_ => some []
  | bit :: bits,sbr => do
    let (raw,sbr) ← readFormat.run sbr
    let rest ← parse bits sbr
    pure ((bit,raw) :: rest)

theorem testBitClear {flags bit other : Nat} (different : other ≠ bit) (low : other < 32) :
    (clearBit flags bit).testBit other = flags.testBit other := by
  have ones : (0xFFFFFFFF : Nat).testBit other = true := by
    have all : (0xFFFFFFFF : Nat) = 2 ^ 32 - 1 := rfl
    rw [all,Nat.testBit_two_pow_sub_one]
    simpa using low
  rw [clearBit,Nat.testBit_and,Nat.testBit_xor,ones,Nat.one_shiftLeft,
    Nat.testBit_two_pow_of_ne different.symm]
  simp

theorem takeFormatsParse {bits : List Nat} (distinct : bits.Nodup) (low : ∀ bit ∈ bits, bit < 32)
    (sbr : Bytes) {clip : ExtClip} (live : clip.remoteFlags ≠ 0) (got : List (Nat × Bytes)) :
    (takeFormats bits sbr clip).threw = false ∧ (takeFormats bits sbr clip).delivered = got ↔
      parse (bits.filter (clip.localProvideTypes.testBit ·)) sbr = some got := by
  induction bits generalizing sbr clip got with
  | nil =>
    rw [List.filter_nil,parse,takeFormats,Option.some.injEq]
    exact ⟨fun h => h.2,fun h => ⟨rfl,h⟩⟩
  | cons bit bits ih =>
    obtain ⟨fresh,distinct⟩ := List.nodup_cons.mp distinct
    obtain ⟨_,low⟩ := List.forall_mem_cons.mp low
    cases wanted : clip.localProvideTypes.testBit bit with
    | false =>
      rw [takeFormats,if_neg (by simp [wanted]),List.filter_cons_of_neg (by simp [wanted])]
      exact ih distinct low sbr live got
    | true =>
      rw [takeFormats,if_pos wanted,List.filter_cons_of_pos wanted,parse]
      cases ran : readFormat.run sbr with
      | none => simp
      | some result =>
        obtain ⟨raw,left⟩ := result
        have later : bits.filter ((clearBit clip.localProvideTypes bit).testBit ·) =
            bits.filter (clip.localProvideTypes.testBit ·) := by
          apply List.filter_congr
          intro other mem
          exact testBitClear (fun same => fresh (same ▸ mem)) (low other mem)
        have still : {clip with localProvideTypes := clearBit clip.localProvideTypes bit}.remoteFlags ≠ 0 := live
        have rest (got) := ih distinct low left still got
        simp only [later] at rest
        dsimp only
        rw [if_neg live]
        constructor
        · rintro ⟨whole,delivered⟩
          rw [← delivered]
          have tail := (rest _).mp ⟨whole,rfl⟩
          simp only [bind,Option.bind,tail,pure]
          rfl
        · intro parsed
          obtain ⟨result,here,more⟩ := Option.bind_eq_some_iff.mp parsed
          cases Option.some.inj here
          obtain ⟨tail,same,last⟩ := Option.bind_eq_some_iff.mp more
          cases Option.some.inj last
          obtain ⟨whole,delivered⟩ := (rest tail).mpr same
          exact ⟨whole,congrArg ((bit,raw) :: ·) delivered⟩

theorem readFormatStream {data : Bytes} (small : data.length < 4294967296) (rest : Bytes) :
    readFormat.run (sendIntBE32 data.length ++ data ++ rest) =
      some (if data = [] then (rest,[]) else (data,rest)) := by
  rw [readFormat,StateT.run_bind,List.append_assoc,readsSmall32 small]
  change (if data.length = 0 then _ else takeBytes data.length (data ++ rest)) = _
  by_cases empty : data = []
  · rw [if_pos empty,empty]
    rfl
  · rw [if_neg (by simpa using empty),if_neg empty]
    exact readsTake data rest

theorem streamEmpty {formats : List (Nat × Bytes)} : stream formats = [] ↔ formats = [] := by
  cases formats with
  | nil => simp [stream]
  | cons f rest =>
    have filled : stream (f :: rest) ≠ [] := by
      apply List.ne_nil_of_length_pos
      rw [stream,List.flatMap_cons,List.length_append,List.length_append,sendIntBE32,lengthBigEndian]
      omega
    simp [filled]

theorem parseNothing (bit : Nat) (bits : List Nat) : parse (bit :: bits) [] = none := rfl

/- Cutting a stream up by some formats gives what was put in exactly when they are its own
and no data but the last is empty. -/
theorem parseStream {formats : List (Nat × Bytes)} (small : ∀ f ∈ formats, f.2.length < 4294967296)
    (bits : List Nat) :
    parse bits (stream formats) = some formats ↔ bits = formats.map Prod.fst ∧ OnlyLastEmpty formats := by
  induction formats generalizing bits with
  | nil =>
    cases bits with
    | nil => simp [parse,OnlyLastEmpty]
    | cons bit bits => simp [stream,parseNothing]
  | cons f rest ih =>
    obtain ⟨own,data⟩ := f
    obtain ⟨fits,small⟩ := List.forall_mem_cons.mp small
    cases bits with
    | nil => simp [parse]
    | cons bit bits =>
      have cut : stream ((own,data) :: rest) = sendIntBE32 data.length ++ data ++ stream rest := by
        rw [stream,List.flatMap_cons]
        rfl
      have tail := ih small bits
      rw [cut,parse,readFormatStream fits,List.map_cons,OnlyLastEmpty]
      by_cases empty : data = []
      · subst empty
        cases rest with
        | nil =>
          cases bits with
          | nil => simp [parse,stream,OnlyLastEmpty]
          | cons next bits => simp [parseNothing,stream]
        | cons g rest =>
          have filled : stream (g :: rest) ≠ [] := fun none => by cases streamEmpty.mp none
          constructor
          · intro parsed
            obtain ⟨result,here,more⟩ := Option.bind_eq_some_iff.mp parsed
            cases Option.some.inj here
            obtain ⟨_,_,last⟩ := Option.bind_eq_some_iff.mp more
            have first := (List.cons.inj (Option.some.inj last)).1
            exact absurd (congrArg Prod.snd first) filled
          · rintro ⟨_,alone,_⟩
            cases alone rfl
      · simp only [if_neg empty,bind,Option.bind,pure]
        cases made : parse bits (stream rest) with
        | none =>
          rw [made] at tail
          simp_all
        | some got =>
          rw [made] at tail
          simp only [Option.some.injEq] at tail
          simp [empty]
          tauto

/-! The flags of a message, bit by bit. -/

theorem testBitFormats (bits : List Nat) (other : Nat) :
    (formatFlags bits).testBit other = decide (other ∈ bits) := by
  induction bits with
  | nil => simp [formatFlags]
  | cons bit bits ih =>
    change ((1 <<< bit) ||| formatFlags bits).testBit other = _
    rw [Nat.testBit_or,Nat.one_shiftLeft,Nat.testBit_two_pow,ih]
    simp [eq_comm]

theorem formatFlagsSmall {bits : List Nat} (low : ∀ bit ∈ bits, bit < 16) : formatFlags bits < 2 ^ 16 := by
  induction bits with
  | nil => decide
  | cons bit bits ih =>
    obtain ⟨here,low⟩ := List.forall_mem_cons.mp low
    apply Nat.or_lt_two_pow ?_ (ih low)
    rw [Nat.one_shiftLeft]
    exact Nat.pow_lt_pow_right (by decide) here

section
variable {z : ZLib}

theorem provideFlag (p : Provide z) (other : Nat) (high : 16 ≤ other) :
    (ExtClipCaps.opProvide.flag ||| formatFlags p.bits).testBit other = decide (other = 28) := by
  have absent : other ∉ p.bits := by
    intro mem
    obtain ⟨f,held,rfl⟩ := List.mem_map.mp mem
    have low := p.known f held
    omega
  rw [Nat.testBit_or,testBitFormats,decide_eq_false absent,Bool.or_false,ExtClipCaps.flag,
    Nat.one_shiftLeft,Nat.testBit_two_pow]
  simp [ExtClipCaps.bit,eq_comm]

/- The word of flags leads to the handler of its operation. -/
theorem recvProvideMessage (p : Provide z) (owner : Owner) (clip : ExtClip) :
    recvExtClipboardCapsEvent z owner p.message clip =
      let zip := z.deflateData (stream p.formats)
      recvExtClipboardProvide z (sendIntBE32 zip.length ++ zip) clip := by
  have small : ExtClipCaps.opProvide.flag ||| formatFlags p.bits < 4294967296 := by
    apply Nat.or_lt_two_pow (n := 32) (by decide)
    have types : formatFlags p.bits < 2 ^ 16 := by
      apply formatFlagsSmall
      intro bit mem
      obtain ⟨f,held,rfl⟩ := List.mem_map.mp mem
      exact p.known f held
    omega
  have one : popcount (ExtClipCaps.opProvide.flag ||| formatFlags p.bits)
      (allOps.map ExtClipCaps.bit) = 1 := by
    simp only [popcount,allOps,List.map_cons,List.map_nil,ExtClipCaps.bit,List.filter_cons,
      List.filter_nil,provideFlag p 25 (by decide),provideFlag p 26 (by decide),
      provideFlag p 27 (by decide),provideFlag p 28 (by decide)]
    rfl
  have unset (cap : ExtClipCaps) (high : 16 ≤ cap.bit) (different : cap.bit ≠ 28) :
      ¬allows (ExtClipCaps.opProvide.flag ||| formatFlags p.bits) cap = true := by
    rw [allows,provideFlag p _ high,decide_eq_true_iff]
    exact different
  unfold recvExtClipboardCapsEvent Provide.message
  rw [readsSmall32 small]
  dsimp only
  rw [if_neg (unset .opCaps (by decide) (by decide)),if_neg (not_not.mpr one),
    if_neg (unset .opRequest (by decide) (by decide)),
    if_neg (unset .opPeek (by decide) (by decide)),
    if_neg (unset .opNotify (by decide) (by decide))]

theorem takeWaiting (sbr : Bytes) {clip : ExtClip} (got : List (Nat × Bytes)) (some : got ≠ []) :
    (takeFormats (List.range 32) sbr clip).threw = false ∧
        (takeFormats (List.range 32) sbr clip).delivered = got ↔
      clip.remoteFlags ≠ 0 ∧ parse (outstanding clip) sbr = .some got := by
  by_cases live : clip.remoteFlags = 0
  · have silent (bits : List Nat) (sbr : Bytes) : (takeFormats bits sbr clip).delivered = [] := by
      induction bits generalizing sbr with
      | nil => rfl
      | cons bit bits ih =>
        rw [takeFormats]
        split
        · split
          · rfl
          · rfl
        · exact ih sbr
    rw [silent]
    exact ⟨fun h => absurd h.2.symm some,fun h => absurd live h.1⟩
  · rw [takeFormatsParse List.nodup_range (fun bit mem => List.mem_range.mp mem) sbr live got]
    exact ⟨fun h => ⟨live,h⟩,fun h => h.2⟩

theorem provideMatched (h : z.Lossless) (p : Provide z) (owner : Owner) (clip : ExtClip) :
    ((recvExtClipboardCapsEvent z owner p.message clip).threw = false ∧
        (recvExtClipboardCapsEvent z owner p.message clip).delivered = p.formats) ↔ Matched clip p := by
  rw [recvProvideMessage]
  unfold recvExtClipboardProvide Matched
  by_cases may : allows clip.localFlags .opProvide = true
  · simp only [may,if_true,true_and]
    rw [readsSmall32 p.fits]
    dsimp only
    by_cases empty : p.formats = []
    · have nothing : (z.deflateData (stream p.formats)).length = 0 := by
        rw [empty]
        rfl
      rw [if_pos nothing,empty]
      exact ⟨fun _ => .inl rfl,fun _ => ⟨rfl,rfl⟩⟩
    · have filled : z.deflateData (stream p.formats) ≠ [] := by
        intro none
        exact empty (streamEmpty.mp ((ZLib.deflateEmpty h).mp none))
      have long : (z.deflateData (stream p.formats)).length ≠ 0 := by simpa using filled
      have whole : (read (z.deflateData (stream p.formats)).length).run (z.deflateData (stream p.formats)) =
          some (z.deflateData (stream p.formats),[]) := by
        change (if _ then _ else takeBytes _ _) = _
        rw [if_neg long]
        have took := readsTake (z.deflateData (stream p.formats)) []
        rwa [List.append_nil] at took
      rw [if_neg long,whole]
      dsimp only
      rw [ZLib.inflateDeflate h]
      dsimp only
      rw [takeWaiting _ _ empty,parseStream p.small]
      simp only [empty,false_or]
      exact Iff.rfl
  · rw [if_neg may]
    simp [may]

theorem pairsOfKeys {formats delivered : List (Nat × Bytes)} (distinct : (formats.map Prod.fst).Nodup)
    (keys : delivered.map Prod.fst = formats.map Prod.fst) (inside : ∀ pair ∈ delivered, pair ∈ formats) :
    delivered = formats := by
  induction formats generalizing delivered with
  | nil => simpa using keys
  | cons f rest ih =>
    obtain ⟨fresh,others⟩ := List.nodup_cons.mp distinct
    cases delivered with
    | nil => cases keys
    | cons pair more =>
      obtain ⟨same,tailKeys⟩ := List.cons.inj keys
      obtain ⟨first,later⟩ := List.forall_mem_cons.mp inside
      have head : pair = f := by
        rcases List.mem_cons.mp first with equal | elsewhere
        · exact equal
        · exact absurd (List.mem_map.mpr ⟨pair,elsewhere,same⟩) fresh
      have tail : more = rest := by
        apply ih others tailKeys
        intro other mem
        rcases List.mem_cons.mp (later other mem) with equal | found
        · have twice : f.1 ∈ rest.map Prod.fst := by
            rw [← tailKeys,← equal]
            exact List.mem_map.mpr ⟨other,mem,rfl⟩
          exact absurd twice fresh
        · exact found
      rw [head,tail]

theorem parsedIff (r : Received z) :
    ParsedByOwnFormats r ↔ r.out.threw = false ∧ r.out.delivered = r.provide.formats := by
  constructor
  · intro h
    have distinct : (r.provide.formats.map Prod.fst).Nodup := r.provide.sorted.imp Nat.ne_of_lt
    exact ⟨h.whole,pairsOfKeys distinct h.formats h.sent⟩
  · rintro ⟨whole,same⟩
    exact ⟨whole,congrArg (List.map Prod.fst) same,fun pair mem => same ▸ mem⟩

end

/-! Runs of one end. Its peer sends what it likes, when it likes. -/

inductive Action (z : ZLib)
  | request (types : Nat)
  | peek
  | notify (types : Nat)
  | receive (buf : Bytes)
  | provide (p : Provide z)

/- An exception ends the session; `received` is what came of each Provide message. -/
structure Session (z : ZLib) where
  clip : ExtClip
  running : Bool := true
  received : List (Received z) := []

section
variable {z : ZLib}

def Session.absorb (s : Session z) (out : Outcome) : Session z :=
  {s with clip := out.clip, running := !out.threw}

def handleProvide (owner : Owner) (p : Provide z) (s : Session z) : Session z :=
  let out := recvExtClipboardCapsEvent z owner p.message s.clip
  {s.absorb out with received := s.received ++ [⟨p,out⟩]}

def step (owner : Owner) (s : Session z) (a : Action z) : Session z :=
  if s.running = false then s
  else match a with
    | .request types => s.absorb (sendExtClipboardRequest types s.clip)
    | .peek => s.absorb (sendExtClipboardPeek s.clip)
    | .notify types => s.absorb (sendExtClipboardNotify types s.clip)
    | .receive buf => s.absorb (recvExtClipboardCapsEvent z owner buf s.clip)
    | .provide p => handleProvide owner p s

/- A Provide message comes when the formats waited for are its own. -/
def ComesMatched (s : Session z) : Action z → Prop
  | .provide p => s.running = true → Matched s.clip p
  | _ => True

instance (s : Session z) (a : Action z) : Decidable (ComesMatched s a) := by
  cases a <;> unfold ComesMatched <;> infer_instance

theorem stepReceived (h : z.Lossless) (owner : Owner) (s : Session z) (a : Action z) :
    ∃ added, (step owner s a).received = s.received ++ added ∧
      (ComesMatched s a ↔ ∀ r ∈ added, ParsedByOwnFormats r) := by
  unfold step
  by_cases ended : s.running = false
  · refine ⟨[],by rw [if_pos ended,List.append_nil],?_⟩
    cases a <;> simp [ComesMatched,ended]
  rw [if_neg ended]
  cases a with
  | provide p =>
    refine ⟨_,rfl,?_⟩
    rw [List.forall_mem_singleton,parsedIff]
    have matched := provideMatched h p owner s.clip
    simp only [ComesMatched,Bool.not_eq_false] at ended ⊢
    simp only [ended,forall_const]
    exact matched.symm
  | request types => exact ⟨[],(List.append_nil _).symm,by simp [ComesMatched]⟩
  | peek => exact ⟨[],(List.append_nil _).symm,by simp [ComesMatched]⟩
  | notify types => exact ⟨[],(List.append_nil _).symm,by simp [ComesMatched]⟩
  | receive buf => exact ⟨[],(List.append_nil _).symm,by simp [ComesMatched]⟩

/- Each message is parsed by its own formats exactly in the runs in which each comes matched. -/
theorem parsedByOwnFormatsIff (h : z.Lossless) (owner : Owner) (clip : ExtClip) (actions : List (Action z)) :
    (∀ r ∈ (run (step owner) {clip} actions).received, ParsedByOwnFormats r) ↔
      Meets (step owner) ComesMatched {clip} actions := by
  have logged : (∀ r ∈ (run (step owner) {clip} actions).received, ParsedByOwnFormats r) ↔
      (∀ r ∈ Session.received {clip}, ParsedByOwnFormats r) ∧ Meets (step owner) ComesMatched {clip} actions :=
    meetsLog (P := fun _ => True) Session.received (fun _ _ _ => trivial)
      (fun s a _ => stepReceived h owner s a) trivial actions
  rw [logged]
  exact and_iff_right (by simp)

end

/- What zlib makes of one html fragment. -/
def htmlBlock : Bytes := [0x00,0x00,0x00,0x03,0x3C,0x62,0x3E]
def htmlZip : Bytes := [0x78,0xDA,0x62,0x60,0x60,0x60,0xB6,0x49,0xB2,0x03,0x00,0x00,0x00,0xFF,0xFF]
def htmlZLib : ZLib := .recorded htmlBlock htmlZip

def htmlProvide : Provide htmlZLib where
  formats := [(2,[0x3C,0x62,0x3E])]
  sorted := by decide
  known := by decide
  small := by decide
  fits := by decide

def emptyOwner : Owner := ⟨0,fun _ => some []⟩
def agreed : ExtClip := {remoteFlags := usualFlags, localFlags := usualFlags}

theorem htmlParsed : (run (step emptyOwner) {clip := agreed} [.request 4,.provide htmlProvide]).received ≠ [] ∧
    ∀ r ∈ (run (step emptyOwner) {clip := agreed} [.request 4,.provide htmlProvide]).received,
      ParsedByOwnFormats r :=
  ⟨List.cons_ne_nil _ _,
    (parsedByOwnFormatsIff (ZLib.recordedLossless htmlBlock (by decide)) emptyOwner agreed
      [.request 4,.provide htmlProvide]).mpr (by decide +kernel)⟩

/- Text and html are asked for; the html alone comes, and is taken for the text. -/
theorem htmlTakenForText :
    ∃ r ∈ (run (step emptyOwner) {clip := agreed}
        [.request 1,.request 4,.provide htmlProvide]).received,
      (0,[0x3C,0x62,0x3E]) ∈ r.out.delivered ∧ (0,[0x3C,0x62,0x3E]) ∉ r.provide.formats ∧
        ¬ParsedByOwnFormats r := by
  refine ⟨⟨htmlProvide,_⟩,List.mem_cons_self,?_,by decide,?_⟩
  · decide +kernel
  · intro parsed
    have sent := parsed.sent (0,[0x3C,0x62,0x3E]) (by decide +kernel)
    revert sent
    decide

end Ltsm.ClipboardMatching
