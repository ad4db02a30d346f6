import Ltsm.Library.ByteReader
import Ltsm.Library.Run

/-! Commands out of a byte stream that arrives in pieces. A feeder takes commands from the
front of its buffer while a header is there, and keeps bytes for the next piece: those of the
last packet that it began, or all it has if it began none. A coding says how the commands are
written and which of them the feeder takes as they are. -/
namespace Ltsm.Library

/- There are too few bytes yet, or the reading ends in another exception. -/
inductive Fault
  | underflow
  | thrown
  deriving DecidableEq, Repr

/- `parse` takes one command from a buffer; a command whose execution throws has no next state. -/
structure Feeder (S C : Type) where
  header : Nat
  parse : S → Bytes → Except Fault (C × Bytes)
  execute : S → C → Option S
  shrinks : ∀ {s buf c rest}, parse s buf = .ok (c,rest) → rest.length < buf.length

structure Feed (S C : Type) where
  state : S
  last : Bytes := []
  done : List C := []

namespace Feeder
variable {S C : Type} (k : Feeder S C)

/- The loop over a buffer; `begun` is the last packet that was begun in it. -/
def loop (s : S) (begun : Option Bytes) (done : List C) (buf : Bytes) : Option (Feed S C) :=
  if k.header ≤ buf.length then
    match _taken : k.parse s buf with
    | .error .underflow => some ⟨s,buf,done⟩
    | .error .thrown => none
    | .ok (c,rest) =>
      match k.execute s c with
      | none => none
      | some next => loop next (some buf) (done ++ [c]) rest
  else if buf = [] then some ⟨s,[],done⟩
  else some ⟨s,begun.getD buf,done⟩
termination_by buf.length
decreasing_by exact k.shrinks _taken

def pushData (feed : Feed S C) (recv : Bytes) : Option (Feed S C) := k.loop feed.state none feed.done (feed.last ++ recv)

section
variable {k} {s : S} {begun : Option Bytes} {done : List C} {buf : Bytes}

theorem loopUnderflow (there : k.header ≤ buf.length) (parsed : k.parse s buf = .error .underflow) :
    k.loop s begun done buf = some ⟨s,buf,done⟩ := by
  rw [loop,if_pos there]
  split <;> simp_all

theorem loopThrown (there : k.header ≤ buf.length) (parsed : k.parse s buf = .error .thrown) :
    k.loop s begun done buf = none := by
  rw [loop,if_pos there]
  split <;> simp_all

theorem loopTaken {c : C} {rest : Bytes} (there : k.header ≤ buf.length) (parsed : k.parse s buf = .ok (c,rest)) :
    k.loop s begun done buf = (k.execute s c).bind fun next => k.loop next (some buf) (done ++ [c]) rest := by
  rw [loop,if_pos there]
  split
  · simp_all
  · simp_all
  · rename_i same
    rw [parsed] at same
    cases same
    cases k.execute s c <;> rfl

theorem loopShort (short : buf.length < k.header) :
    k.loop s begun done buf = some ⟨s,if buf = [] then [] else begun.getD buf,done⟩ := by
  rw [loop,if_neg (by omega)]
  split <;> rfl

/- What was done is never taken back. -/
theorem loopExtends (feed : Feed S C) (ends : k.loop s begun done buf = some feed) : done <+: feed.done := by
  fun_induction loop k s begun done buf with
  | case1 s begun done buf there parsed =>
    cases Option.some.inj ends
    exact List.prefix_refl _
  | case2 => cases ends
  | case3 => cases ends
  | case4 s begun done buf there c rest parsed next ran ih => exact (List.prefix_append _ _).trans (ih ends)
  | case5 =>
    cases Option.some.inj ends
    exact List.prefix_refl _
  | case6 =>
    cases Option.some.inj ends
    exact List.prefix_refl _

end

/- A feeder that has thrown takes nothing any more. -/
def push (feed : Option (Feed S C)) (recv : Bytes) : Option (Feed S C) := feed.bind fun feed => k.pushData feed recv

end Feeder

/- `Closed`: a command is taken as it was written, with these bytes behind it. `Splits`: its
first bytes alone, so many of them, are kept for later. -/
structure Coding {S C : Type} (k : Feeder S C) where
  Valid : C → Prop
  encode : C → Bytes
  Closed : S → C → Bytes → Prop
  Splits : S → C → Nat → Prop
  any : 0 < k.header
  filled : ∀ {c}, Valid c → k.header ≤ (encode c).length
  whole : ∀ {s c more rest}, Valid c → (k.parse s (encode c ++ more) = .ok (c,rest) ↔ rest = more ∧ Closed s c more)
  part : ∀ {s c n}, Valid c → k.header ≤ n → n < (encode c).length →
    (k.parse s ((encode c).take n) = .error .underflow ↔ Splits s c n)

namespace Coding
variable {S C : Type} {k : Feeder S C} (coding : Coding k)

def stream (cmds : List C) : Bytes := cmds.flatMap coding.encode

@[simp] theorem streamAppend (first rest : List C) :
    coding.stream (first ++ rest) = coding.stream first ++ coding.stream rest := List.flatMap_append

/- After so many bytes of the stream: the commands that have arrived are executed, once each
and in order, and what there is of the next one is kept. -/
def Kept (cmds : List C) (received : Bytes) (feed : Feed S C) : Prop :=
  ∃ rest, cmds = feed.done ++ rest ∧ received = coding.stream feed.done ++ feed.last ∧
    ∀ c ∈ rest.head?, feed.last.length < (coding.encode c).length

/- After every piece. -/
def Exact (s : S) (cmds : List C) (frames : List Bytes) : Prop :=
  ∀ pre post, frames = pre ++ post → ∃ feed, run k.push (some ⟨s,[],[]⟩) pre = some feed ∧ coding.Kept cmds pre.flatten feed

/- A buffer with the next commands of the stream: those that are there are taken and executed,
and of the one after them there is nothing, or enough to begin it, or it is alone. -/
def Clean (begun : Bool) (s : S) (buf : Bytes) : List C → Prop
  | [] => True
  | c :: rest =>
    if (coding.encode c).length ≤ buf.length then
      coding.Closed s c (buf.drop (coding.encode c).length) ∧
        ∃ next, k.execute s c = some next ∧ Clean true next (buf.drop (coding.encode c).length) rest
    else if k.header ≤ buf.length then coding.Splits s c buf.length
    else buf = [] ∨ begun = false

/- The next piece, with what was kept before it. -/
def Proper (cmds : List C) (feed : Option (Feed S C)) (frame : Bytes) : Prop :=
  ∀ now, feed = some now → coding.Clean false now.state (now.last ++ frame) (cmds.drop now.done.length)

/- What the loop makes of a buffer, when it goes right. -/
def After (cmds done : List C) (buf : Bytes) (feed : Feed S C) : Prop :=
  ∃ taken rest, cmds = taken ++ rest ∧ feed.done = done ++ taken ∧ buf = coding.stream taken ++ feed.last ∧
    ∀ c ∈ rest.head?, feed.last.length < (coding.encode c).length

variable {coding} {s : S} {begun : Option Bytes} {done cmds : List C} {buf : Bytes} {c : C}

/- A buffer too short for the next command gives none. -/
theorem afterShort {feed : Feed S C} (short : buf.length < (coding.encode c).length) :
    coding.After (c :: cmds) done buf feed ↔ feed.done = done ∧ feed.last = buf := by
  constructor
  · rintro ⟨taken,rest,split,same,bytes,_⟩
    cases taken with
    | nil => exact ⟨by simpa using same,by simpa [stream] using bytes.symm⟩
    | cons first taken =>
      cases split
      rw [stream,List.flatMap_cons] at bytes
      rw [bytes] at short
      simp only [List.length_append] at short
      omega
  · rintro ⟨same,bytes⟩
    exact ⟨[],c :: cmds,rfl,by simp [same],by simp [stream,bytes],by simpa [bytes] using short⟩

/- A buffer with the whole next command gives it and goes on. -/
theorem afterWhole {feed : Feed S C} {more : Bytes} :
    coding.After (c :: cmds) done (coding.encode c ++ more) feed ↔ coding.After cmds (done ++ [c]) more feed := by
  constructor
  · rintro ⟨taken,rest,split,same,bytes,left⟩
    cases taken with
    | nil =>
      cases split
      have size := left c rfl
      simp only [stream,List.flatMap_nil,List.nil_append] at bytes
      rw [← bytes,List.length_append] at size
      omega
    | cons first taken =>
      cases split
      rw [stream,List.flatMap_cons,List.append_assoc,List.append_cancel_left_eq] at bytes
      exact ⟨taken,rest,rfl,by simpa using same,bytes,left⟩
  · rintro ⟨taken,rest,rfl,same,bytes,left⟩
    exact ⟨c :: taken,rest,rfl,by simpa using same,by simp [stream,bytes],left⟩

theorem doneGrows {feed : Feed S C} {first : C} {rest : Bytes}
    (ran : (k.execute s first).bind (fun next => k.loop next (some buf) (done ++ [first]) rest) = some feed) :
    done ++ [first] <+: feed.done := by
  obtain ⟨next,_,later⟩ := Option.bind_eq_some_iff.mp ran
  exact Feeder.loopExtends feed later

/- The next command is in the buffer. -/
theorem loopWhole {more : Bytes} (valid : coding.Valid c) (there : k.header ≤ (coding.encode c ++ more).length) :
    (∃ feed, k.loop s begun done (coding.encode c ++ more) = some feed ∧
        coding.After (c :: cmds) done (coding.encode c ++ more) feed) ↔
      coding.Closed s c more ∧ ∃ next, k.execute s c = some next ∧
        ∃ feed, k.loop next (some (coding.encode c ++ more)) (done ++ [c]) more = some feed ∧
          coding.After cmds (done ++ [c]) more feed := by
  simp only [afterWhole]
  by_cases closed : coding.Closed s c more
  · rw [Feeder.loopTaken there ((coding.whole valid).mpr ⟨rfl,closed⟩),and_iff_right closed]
    cases k.execute s c <;> simp
  · refine iff_of_false ?_ fun both => closed both.1
    rintro ⟨feed,ran,taken,rest,_,same,_⟩
    cases parsed : k.parse s (coding.encode c ++ more) with
    | error fault =>
      cases fault with
      | thrown =>
        rw [Feeder.loopThrown there parsed] at ran
        cases ran
      | underflow =>
        rw [Feeder.loopUnderflow there parsed] at ran
        cases ran
        simp at same
    | ok found =>
      obtain ⟨first,left⟩ := found
      rw [Feeder.loopTaken there parsed] at ran
      obtain ⟨later,more⟩ := doneGrows ran
      rw [same,List.append_assoc,List.append_assoc,List.append_cancel_left_eq] at more
      cases more
      exact closed ((coding.whole valid).mp parsed).2

/- There is only a part of it. -/
theorem loopPart {post : Bytes} (valid : coding.Valid c) (cut : buf ++ post = coding.encode c) (short : buf.length < (coding.encode c).length)
    (inside : ∀ x ∈ begun, buf.length < x.length) :
    (∃ feed, k.loop s begun done buf = some feed ∧ feed.done = done ∧ feed.last = buf) ↔
      if k.header ≤ buf.length then coding.Splits s c buf.length else buf = [] ∨ begun.isSome = false := by
  split
  · rename_i there
    have front : (coding.encode c).take buf.length = buf := by rw [← cut,List.take_left]
    rw [← coding.part valid there short,front]
    cases parsed : k.parse s buf with
    | error fault =>
      cases fault with
      | thrown => simp [Feeder.loopThrown there parsed]
      | underflow => simp [Feeder.loopUnderflow there parsed]
    | ok found =>
      refine iff_of_false ?_ (by simp)
      rintro ⟨feed,ran,same,_⟩
      rw [Feeder.loopTaken there parsed] at ran
      obtain ⟨later,more⟩ := doneGrows ran
      rw [same] at more
      simp at more
  · rename_i few
    rw [Feeder.loopShort (by omega)]
    cases begun with
    | none => simp
    | some packet =>
      have longer := inside packet rfl
      by_cases empty : buf = []
      · simp [empty]
      · have other : packet ≠ buf := fun same => absurd longer (by rw [same]; exact lt_irrefl _)
        simp [empty,other]

/- The loop goes right exactly on a clean buffer. By the commands of the stream. -/
theorem loopKept {post : Bytes} (valid : ∀ c ∈ cmds, coding.Valid c) (cut : buf ++ post = coding.stream cmds) (inside : ∀ x ∈ begun, buf.length < x.length) :
    (∃ feed, k.loop s begun done buf = some feed ∧ coding.After cmds done buf feed) ↔
      coding.Clean begun.isSome s buf cmds := by
  induction cmds generalizing s begun done buf with
  | nil =>
    obtain ⟨rfl,rfl⟩ := List.append_eq_nil_iff.mp cut
    refine iff_of_true ⟨_,Feeder.loopShort coding.any,[],[],rfl,by simp,by simp [stream],by simp⟩ ?_
    trivial
  | cons c cmds ih =>
    obtain ⟨first,later⟩ := List.forall_mem_cons.mp valid
    have filled := coding.filled first
    have any := coding.any
    rw [stream,List.flatMap_cons] at cut
    by_cases there : (coding.encode c).length ≤ buf.length
    · obtain ⟨more,rfl⟩ : ∃ more, buf = coding.encode c ++ more :=
        (List.prefix_of_prefix_length_le ⟨_,rfl⟩ ⟨post,cut⟩ there).elim fun more same => ⟨more,same.symm⟩
      rw [List.append_assoc,List.append_cancel_left_eq] at cut
      have shorter : ∀ x ∈ some (coding.encode c ++ more), more.length < x.length := by
        intro x same
        cases same
        rw [List.length_append]
        omega
      rw [loopWhole first (filled.trans there),Clean,if_pos there,List.drop_left]
      refine and_congr_right fun _ => exists_congr fun next => and_congr_right fun _ => ih later cut shorter
    · have front : buf <+: coding.encode c :=
        List.prefix_of_prefix_length_le ⟨post,cut⟩ ⟨_,rfl⟩ (by omega)
      obtain ⟨left,split⟩ := front
      simp only [afterShort (not_le.mp there),Clean,if_neg there]
      exact loopPart first split (not_le.mp there) inside

/- One piece of the stream. -/
theorem pushKept {received post frame : Bytes} {feed : Feed S C} (valid : ∀ c ∈ cmds, coding.Valid c) (kept : coding.Kept cmds received feed)
    (cut : received ++ frame ++ post = coding.stream cmds) :
    (∃ next, k.pushData feed frame = some next ∧ coding.Kept cmds (received ++ frame) next) ↔
      coding.Proper cmds (some feed) frame := by
  obtain ⟨rest,split,bytes,short⟩ := kept
  have left : cmds.drop feed.done.length = rest := by rw [split,List.drop_left]
  have here : (feed.last ++ frame) ++ post = coding.stream rest := by
    rw [bytes,split] at cut
    simpa [stream,List.append_assoc] using cut
  have loops := @loopKept S C k coding feed.state none feed.done rest (feed.last ++ frame) post
    (fun c mem => valid c (split ▸ List.mem_append_right _ mem)) here (by simp)
  have proper : coding.Proper cmds (some feed) frame ↔ coding.Clean false feed.state (feed.last ++ frame) rest := by
    simp [Proper,left]
  rw [proper,← Option.isSome_none (α := Bytes),← loops]
  refine exists_congr fun next => and_congr_right fun ran => ?_
  constructor
  · rintro ⟨later,same,all,few⟩
    obtain ⟨taken,grown⟩ := Feeder.loopExtends next ran
    refine ⟨taken,later,?_,grown.symm,?_,few⟩
    · rw [split,← grown,List.append_assoc,List.append_cancel_left_eq] at same
      exact same
    · rw [bytes,← grown,streamAppend,List.append_assoc,List.append_assoc,List.append_cancel_left_eq] at all
      exact all
  · rintro ⟨taken,later,rfl,same,all,few⟩
    refine ⟨later,by rw [split,same,List.append_assoc],?_,few⟩
    rw [bytes,same,List.append_assoc,all,streamAppend,List.append_assoc]

/- After every piece from here on. -/
theorem exactFrom {frames : List Bytes} {received : Bytes} {feed : Feed S C} (valid : ∀ c ∈ cmds, coding.Valid c)
    (kept : coding.Kept cmds received feed)
    (cut : received ++ frames.flatten = coding.stream cmds) :
    (∀ pre post, frames = pre ++ post → ∃ next, run k.push (some feed) pre = some next ∧
        coding.Kept cmds (received ++ pre.flatten) next) ↔ Meets k.push (coding.Proper cmds) (some feed) frames := by
  induction frames generalizing received feed with
  | nil =>
    refine iff_of_true (fun pre post same => ?_) trivial
    obtain ⟨rfl,rfl⟩ := List.append_eq_nil_iff.mp same.symm
    exact ⟨feed,rfl,by simpa using kept⟩
  | cons frame frames ih =>
    rw [List.flatten_cons,← List.append_assoc] at cut
    rw [Meets,← pushKept valid kept cut]
    constructor
    · intro always
      obtain ⟨next,ran,good⟩ := always [frame] frames rfl
      rw [List.flatten_singleton] at good
      have step : k.push (some feed) frame = some next := ran
      refine ⟨⟨next,step,good⟩,?_⟩
      rw [step,← ih good cut]
      intro pre post same
      obtain ⟨last,later,fine⟩ := always (frame :: pre) post (by rw [same,List.cons_append])
      rw [runCons,step] at later
      exact ⟨last,later,by simpa [List.append_assoc] using fine⟩
    · rintro ⟨⟨next,step,good⟩,meets⟩ pre post same
      cases pre with
      | nil => exact ⟨feed,rfl,by simpa using kept⟩
      | cons first pre =>
        obtain ⟨rfl,rfl⟩ := List.cons.inj same
        have step : k.push (some feed) frame = some next := step
        rw [step,← ih good cut] at meets
        obtain ⟨last,later,fine⟩ := meets pre post rfl
        exact ⟨last,by rw [runCons,step,later],by simpa [List.append_assoc] using fine⟩

/- The rule: a stream in pieces is taken exactly if each piece leaves a clean buffer. -/
theorem exactIff {frames : List Bytes} (valid : ∀ c ∈ cmds, coding.Valid c) (cut : frames.flatten = coding.stream cmds) :
    coding.Exact s cmds frames ↔ Meets k.push (coding.Proper cmds) (some ⟨s,[],[]⟩) frames := by
  have fresh : coding.Kept cmds [] ⟨s,[],[]⟩ := by
    refine ⟨cmds,rfl,rfl,fun c first => ?_⟩
    exact Nat.lt_of_lt_of_le coding.any (coding.filled (valid c (List.mem_of_mem_head? first)))
  simpa [Exact] using exactFrom valid fresh (by simpa using cut)

end Coding

end Ltsm.Library
