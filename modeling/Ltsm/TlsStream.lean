import Mathlib.Data.List.Basic
import Mathlib.Data.List.Range
import Mathlib.Tactic.Linarith
import Ltsm.Library.ByteReader

/-! Reads and writes of the TLS stream. The session answers each call with a count or with
an error, returned or thrown; the stream goes on from there with a pointer and the length
that is left. -/
namespace Ltsm.TlsStream
open Library

def GNUTLS_E_AGAIN : Int := -28
def GNUTLS_E_INTERRUPTED : Int := -52

structure ErrorCode where
  value : Int
  negative : value < 0
  deriving DecidableEq, Repr

/- A count is cut to what was asked for; none at all is the end of the stream. -/
inductive Answer
  | count (n : Nat)
  | returned (code : ErrorCode)
  | thrown (code : ErrorCode)
  deriving DecidableEq, Repr

/- The session is asked again. -/
def Answer.retried : Answer → Bool
  | .returned code => code.value = GNUTLS_E_AGAIN || code.value = GNUTLS_E_INTERRUPTED
  | _ => false

/- Where a byte in the buffer is from: its number among those of the session. -/
inductive Origin
  | peeked
  | session (index : Nat)
  deriving DecidableEq, Repr

/- Nothing sets `peek` but its initial value and the read that takes it. -/
structure Stream where
  peek : Int := -1
  next : Nat := 0
  unset : peek < 0 := by decide
  deriving DecidableEq, Repr

inductive Outcome
  | waiting
  | threw
  | finished
  deriving DecidableEq, Repr

/- What was stored, as offsets from the buffer of the call. -/
structure Received where
  outcome : Outcome
  writes : List (Int × Origin)
  deriving DecidableEq, Repr

def stored (offset : Int) (next count : Nat) : List (Int × Origin) :=
  (List.range count).map fun i : Nat => (offset + i,.session (next + i))

section
variable (isFatal : ErrorCode → Bool)

/- recvRaw from its second statement on: a call of itself goes on at `offset`. A code is
added to the pointer and taken off the length as a count is. -/
def recvFrom (offset : Int) (len next : Nat) : List Answer → Received
  | [] => ⟨.waiting,[]⟩
  | answer :: rest =>
    let goOn (code : ErrorCode) : Received :=
      if isFatal code then ⟨.threw,[]⟩ else recvFrom (offset + code.value) (len - code.value).toNat next rest
    match answer with
    | .count n =>
      let ret := min n len
      if ret = 0 then ⟨.threw,[]⟩
      else if ret < len then
        let more := recvFrom (offset + ret) (len - ret) (next + ret) rest
        {more with writes := stored offset next ret ++ more.writes}
      else ⟨.finished,stored offset next ret⟩
    | .returned code => if answer.retried then recvFrom offset len next rest else goOn code
    | .thrown code => goOn code

def recvRaw (s : Stream) (len : Nat) (answers : List Answer) : Received :=
  if 0 ≤ s.peek then
    let more := recvFrom isFatal 1 ((len + (2 ^ 64 - 1)) % 2 ^ 64) s.next answers
    {more with writes := (0,.peeked) :: more.writes}
  else recvFrom isFatal 0 len s.next answers

/- What the session has taken to send. -/
structure Sent where
  outcome : Outcome
  taken : Bytes
  deriving DecidableEq, Repr

/- A count that is not the whole length is an error in the log, and no code of one. -/
def sendRaw (data : Bytes) : List Answer → Sent
  | [] => ⟨.waiting,[]⟩
  | answer :: rest =>
    let failed (code : ErrorCode) : Sent := if isFatal code then ⟨.threw,[]⟩ else ⟨.finished,[]⟩
    match answer with
    | .count n => ⟨.finished,data.take n⟩
    | .returned code => if answer.retried then sendRaw data rest else failed code
    | .thrown code => failed code

/- Nothing is stored outside the buffer, and a call that returns has filled it with the
next bytes of the session. -/
def RecvFaithful (s : Stream) (len : Nat) (answers : List Answer) : Prop :=
  (∀ write ∈ (recvRaw isFatal s len answers).writes, 0 ≤ write.1 ∧ write.1 < len) ∧
    ((recvRaw isFatal s len answers).outcome = .finished →
      (recvRaw isFatal s len answers).writes = stored 0 s.next len)

def SendFaithful (data : Bytes) (answers : List Answer) : Prop :=
  (sendRaw isFatal data answers).outcome = .finished → (sendRaw isFatal data answers).taken = data

/- Errors that are passed over turn the pointer back by their codes. No bytes come while it
stands before the buffer, and they do not fill the buffer after it has been turned back. -/
def StaysForward (len : Nat) : Int → Bool → List Answer → Prop
  | _, _, [] => True
  | pointer, back, .count n :: rest =>
    n = 0 ∨ pointer = len ∨ 0 ≤ pointer ∧
      if pointer + n < len then StaysForward len (pointer + n) back rest else back = false
  | pointer, back, .returned code :: rest =>
    if (Answer.returned code).retried then StaysForward len pointer back rest
    else isFatal code = true ∨ StaysForward len (pointer + code.value) true rest
  | pointer, _, .thrown code :: rest =>
    isFatal code = true ∨ StaysForward len (pointer + code.value) true rest

/- The first answer that is not asked for again is the whole length, or fatal. -/
def TakesWhole (len : Nat) (answers : List Answer) : Prop :=
  match answers.find? fun answer => !answer.retried with
  | none => True
  | some (.count n) => len ≤ n
  | some (.returned code) => len = 0 ∨ isFatal code = true
  | some (.thrown code) => len = 0 ∨ isFatal code = true

theorem storedAppend (offset : Int) (next first second : Nat) :
    stored offset next (first + second) =
      stored offset next first ++ stored (offset + first) (next + first) second := by
  simp only [stored,List.range_add,List.map_append,List.map_map]
  congr 1
  refine List.map_congr_left fun i _ => ?_
  simp only [Function.comp_apply,Nat.cast_add,Int.add_assoc,Nat.add_assoc]

theorem storedInside {offset : Int} {next count len : Nat} (any : 0 < count) (bound : offset + count ≤ len) :
    (∀ write ∈ stored offset next count, 0 ≤ write.1 ∧ write.1 < (len : Int)) ↔ 0 ≤ offset := by
  constructor
  · intro inside
    have first := inside (offset,.session next) (List.mem_map.mpr ⟨0,List.mem_range.mpr any,by simp⟩)
    exact first.1
  · intro start write inside
    obtain ⟨i,bound,rfl⟩ := List.mem_map.mp inside
    have below := List.mem_range.mp bound
    dsimp only
    omega

theorem storedLength (offset : Int) (next count : Nat) : (stored offset next count).length = count := by
  simp [stored]

/- What holds from a place inside a call on, with the buffer's length. -/
def FromFaithful (len : Nat) (offset : Int) (left next : Nat) (back : Bool) (answers : List Answer) : Prop :=
  (∀ write ∈ (recvFrom isFatal offset left next answers).writes, 0 ≤ write.1 ∧ write.1 < len) ∧
    ((recvFrom isFatal offset left next answers).outcome = .finished →
      back = false ∧ (recvFrom isFatal offset left next answers).writes = stored offset next left)

theorem countEnds (offset : Int) {left next n : Nat} {rest : List Answer} (none : min n left = 0) :
    recvFrom isFatal offset left next (.count n :: rest) = ⟨.threw,[]⟩ := by
  rw [recvFrom]
  simp only [none,if_true]

theorem countShort (offset : Int) {left next n : Nat} {rest : List Answer} (any : 0 < n) (short : n < left) :
    recvFrom isFatal offset left next (.count n :: rest) =
      ⟨(recvFrom isFatal (offset + n) (left - n) (next + n) rest).outcome,
        stored offset next n ++ (recvFrom isFatal (offset + n) (left - n) (next + n) rest).writes⟩ := by
  have ret : min n left = n := by omega
  rw [recvFrom]
  simp only [ret,if_neg any.ne',if_pos short]

theorem countFills (offset : Int) {left next n : Nat} {rest : List Answer} (any : 0 < left) (whole : left ≤ n) :
    recvFrom isFatal offset left next (.count n :: rest) = ⟨.finished,stored offset next left⟩ := by
  have ret : min n left = left := by omega
  rw [recvFrom]
  simp only [ret,if_neg any.ne',Nat.lt_irrefl,if_false]

theorem retriedStep (offset : Int) {left next : Nat} {code : ErrorCode} {rest : List Answer}
    (again : (Answer.returned code).retried = true) :
    recvFrom isFatal offset left next (.returned code :: rest) = recvFrom isFatal offset left next rest := by
  rw [recvFrom]
  simp only [again,if_true]

theorem returnedStep (offset : Int) {left next : Nat} {code : ErrorCode} {rest : List Answer}
    (once : ¬ (Answer.returned code).retried = true) :
    recvFrom isFatal offset left next (.returned code :: rest) =
      if isFatal code then ⟨.threw,[]⟩
      else recvFrom isFatal (offset + code.value) (left - code.value).toNat next rest := by
  rw [recvFrom]
  simp only [once,Bool.false_eq_true,if_false]

theorem finishedLength {offset : Int} {left next : Nat} {answers : List Answer}
    (done : (recvFrom isFatal offset left next answers).outcome = .finished) :
    left ≤ (recvFrom isFatal offset left next answers).writes.length := by
  induction answers generalizing offset left next with
  | nil => cases done
  | cons answer rest ih =>
    have later (code : ErrorCode) (goesOn : recvFrom isFatal offset left next (answer :: rest) =
        if isFatal code then ⟨.threw,[]⟩
        else recvFrom isFatal (offset + code.value) (left - code.value).toNat next rest) :
        left ≤ (recvFrom isFatal offset left next (answer :: rest)).writes.length := by
      rw [goesOn] at done ⊢
      split at done
      · cases done
      · rename_i notFatal
        rw [if_neg notFatal]
        have long := ih done
        have negative := code.negative
        omega
    cases answer with
    | count n =>
      by_cases none : min n left = 0
      · rw [countEnds isFatal offset none] at done
        cases done
      · by_cases short : n < left
        · rw [countShort isFatal offset (by omega) short] at done ⊢
          have long := ih done
          rw [List.length_append,storedLength]
          omega
        · rw [countFills isFatal offset (by omega) (by omega),storedLength]
    | returned code =>
      by_cases again : (Answer.returned code).retried
      · rw [retriedStep isFatal offset again] at done ⊢
        exact ih done
      · exact later code (returnedStep isFatal offset again)
    | thrown code => exact later code (by rw [recvFrom])

/- Passing an error over is as good as what comes after it, if that does not return. -/
theorem errorIff (len : Nat) {offset : Int} {left next : Nat} {back : Bool} {code : ErrorCode} {rest : List Answer}
    {answer : Answer} (goesOn : recvFrom isFatal offset left next (answer :: rest) =
      if isFatal code then ⟨.threw,[]⟩
      else recvFrom isFatal (offset + code.value) (left - code.value).toNat next rest) :
    FromFaithful isFatal len offset left next back (answer :: rest) ↔ isFatal code = true ∨
      FromFaithful isFatal len (offset + code.value) (left - code.value).toNat next true rest := by
  unfold FromFaithful
  rw [goesOn]
  by_cases fatal : isFatal code = true
  · simp [fatal]
  · rw [if_neg fatal,or_iff_right fatal]
    refine and_congr_right fun _ => forall_congr' fun done => ?_
    have long := finishedLength isFatal done
    have negative := code.negative
    refine iff_of_false (fun ⟨_,same⟩ => ?_) (by simp)
    rw [same,storedLength] at long
    omega

theorem countIff {len : Nat} {offset : Int} {left next n : Nat} {back : Bool} {rest : List Answer}
    (whole : offset + left = len) (more : back = true → 0 < left) :
    FromFaithful isFatal len offset left next back (.count n :: rest) ↔
      n = 0 ∨ offset = len ∨ 0 ≤ offset ∧
        if n < left then FromFaithful isFatal len (offset + n) (left - n) (next + n) back rest else back = false := by
  by_cases none : min n left = 0
  · have ends : n = 0 ∨ offset = len := by omega
    simp only [FromFaithful,countEnds isFatal offset none]
    tauto
  · rw [or_iff_right (by omega),or_iff_right (by omega)]
    by_cases short : n < left
    · rw [if_pos short,FromFaithful,countShort isFatal offset (by omega) short,FromFaithful]
      have parts : stored offset next left = stored offset next n ++ stored (offset + n) (next + n) (left - n) := by
        rw [← storedAppend,Nat.add_sub_cancel' short.le]
      simp only [List.forall_mem_append,parts,List.append_cancel_left_eq,
        @storedInside offset next n len (by omega) (by omega)]
      tauto
    · rw [if_neg short,FromFaithful,countFills isFatal offset (by omega) (by omega),
        storedInside (by omega) (by omega)]
      simp

theorem fromFaithfulIff (len : Nat) {offset : Int} {left next : Nat} {back : Bool} {answers : List Answer}
    (whole : offset + left = len) (more : back = true → 0 < left) :
    FromFaithful isFatal len offset left next back answers ↔ StaysForward isFatal len offset back answers := by
  induction answers generalizing offset left next back with
  | nil => simp [FromFaithful,recvFrom,StaysForward]
  | cons answer rest ih =>
    have later (code : ErrorCode) :
        FromFaithful isFatal len (offset + code.value) (left - code.value).toNat next true rest ↔
          StaysForward isFatal len (offset + code.value) true rest := by
      have negative := code.negative
      exact ih (by omega) fun _ => by omega
    cases answer with
    | count n =>
      have inside : offset + n < len ↔ n < left := by omega
      rw [countIff isFatal whole more,StaysForward]
      simp only [inside]
      by_cases short : n < left
      · rw [if_pos short,if_pos short,ih (by omega) fun _ => by omega]
      · rw [if_neg short,if_neg short]
    | returned code =>
      by_cases again : (Answer.returned code).retried
      · rw [StaysForward,if_pos again,← ih whole more,FromFaithful,retriedStep isFatal offset again,FromFaithful]
      · rw [StaysForward,if_neg again,← later code]
        exact errorIff isFatal len (returnedStep isFatal offset again)
    | thrown code =>
      rw [StaysForward,← later code]
      exact errorIff isFatal len (by rw [recvFrom])

theorem recvFaithfulIff (s : Stream) (len : Nat) (answers : List Answer) :
    RecvFaithful isFatal s len answers ↔ StaysForward isFatal len 0 false answers := by
  have unset : ¬ 0 ≤ s.peek := by
    have := s.unset
    omega
  rw [← @fromFaithfulIff isFatal len 0 len s.next false answers (by simp) (by simp),RecvFaithful,recvRaw,
    if_neg unset,FromFaithful]
  simp

theorem sendFaithfulIff (data : Bytes) (answers : List Answer) :
    SendFaithful isFatal data answers ↔ TakesWhole isFatal data.length answers := by
  unfold SendFaithful TakesWhole
  induction answers with
  | nil => simp [sendRaw]
  | cons answer rest ih =>
    cases answer with
    | count n =>
      have whole : data.take n = data ↔ data.length ≤ n := by
        refine ⟨fun same => ?_,List.take_of_length_le⟩
        have length := congrArg List.length same
        rw [List.length_take] at length
        omega
      simp [sendRaw,Answer.retried,whole]
    | returned code =>
      by_cases again : (Answer.returned code).retried
      · simpa [sendRaw,again] using ih
      · by_cases fatal : isFatal code <;> simp [sendRaw,again,fatal,eq_comm]
    | thrown code => by_cases fatal : isFatal code <;> simp [sendRaw,Answer.retried,fatal,eq_comm]

end

/- A read and a write of the stream, each with what the session answers to it. -/
theorem tlsFaithfulIff (isFatal : ErrorCode → Bool) (s : Stream) (len : Nat) (data : Bytes)
    (received sent : List Answer) :
    (RecvFaithful isFatal s len received ↔ StaysForward isFatal len 0 false received) ∧
      (SendFaithful isFatal data sent ↔ TakesWhole isFatal data.length sent) :=
  ⟨recvFaithfulIff isFatal s len received,sendFaithfulIff isFatal data sent⟩

def temporary (code : ErrorCode) : Bool := code.value = GNUTLS_E_AGAIN || code.value = GNUTLS_E_INTERRUPTED
def again : ErrorCode := ⟨GNUTLS_E_AGAIN,by decide⟩

/- Two bytes are asked for, the session throws its code for nothing there yet and then has
thirty; one of two bytes is taken to send. -/
theorem bothUnfaithful :
    ¬ RecvFaithful (fun code => !temporary code) {} 2 [.thrown again,.count 30] ∧
      ¬ SendFaithful (fun code => !temporary code) [0x61,0x62] [.count 1] := by
  rw [recvFaithfulIff,sendFaithfulIff]
  constructor
  · simp [StaysForward,temporary,again,GNUTLS_E_AGAIN]
  · simp [TakesWhole,Answer.retried]

end Ltsm.TlsStream
