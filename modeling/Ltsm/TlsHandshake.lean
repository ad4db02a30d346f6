import Mathlib.Data.List.Basic
import Mathlib.Data.Option.Basic

/-! The TLS layer up to the end of its handshake. What gnutls and the file
system answer is given; the calls made on the session are kept, so that a result
can be compared with what actually happened. -/
namespace Ltsm.TlsHandshake

/- One call of the handshake primitive. -/
inductive Outcome
  | code (value : Int)
  | thrown
  deriving DecidableEq, Repr

/- The files are looked up twice, by the encoder and by the session. A setup
answers whether the gnutls calls before the handshake go through. -/
structure Host where
  fileExists : String → Bool
  sessionFileExists : String → Bool
  anonSetup : String → Bool
  x509Setup : String → String → String → String → String → Bool
  isFatal : Int → Bool
  handshakes : List Outcome

/- `ret` after the call; a caught exception leaves the code of an earlier one. -/
def Outcome.ret (old : Int) : Outcome → Int
  | .code value => value
  | .thrown => old

/- The last `ret` with the calls made, or `none` while the loop is still retrying. -/
def handshakeLoop (isFatal : Int → Bool) : Int → List Outcome → Option (Int × List Outcome)
  | _, [] => none
  | old, call :: rest =>
    let ret := call.ret old
    if ret < 0 ∧ isFatal ret = false then
      (handshakeLoop isFatal ret rest).map fun last => (last.1,call :: last.2)
    else some (ret,[call])

/- The result of startHandshake and the calls it made. -/
structure Handshake where
  ok : Bool
  calls : List Outcome
  deriving DecidableEq, Repr

def startHandshake (isFatal : Int → Bool) (handshakes : List Outcome) : Option Handshake :=
  (handshakeLoop isFatal 0 handshakes).map fun last => ⟨decide (0 ≤ last.1),last.2⟩

/- A session object, or the gnutls exception its setup left with. -/
inductive Init
  | thrown
  | returned (handshake : Handshake)
  deriving DecidableEq, Repr

def defaultPriority : String := "NORMAL:+ANON-ECDH:+ANON-DH"

def orDefault (priority : String) : String := if priority = "" then defaultPriority else priority

def initAnonHandshake (host : Host) (priority : String) : Option Init :=
  if host.anonSetup (orDefault priority) then
    (startHandshake host.isFatal host.handshakes).map .returned
  else some .thrown

def initX509Handshake (host : Host) (priority caFile certFile keyFile crlFile : String) :
    Option Init :=
  if certFile = "" then some (.returned ⟨false,[]⟩)
  else if keyFile = "" then some (.returned ⟨false,[]⟩)
  else if host.sessionFileExists certFile = false then some (.returned ⟨false,[]⟩)
  else if host.sessionFileExists keyFile = false then some (.returned ⟨false,[]⟩)
  else if host.x509Setup (orDefault priority) caFile certFile keyFile crlFile then
    (startHandshake host.isFatal host.handshakes).map .returned
  else some .thrown

/- What is left of a session object: the calls made on it. -/
structure Session where
  calls : List Outcome
  deriving DecidableEq, Repr

/- The constructors have no use for the result of the init functions. -/
def construct : Init → Option Session
  | .thrown => none
  | .returned handshake => some ⟨handshake.calls⟩

def anonSession (host : Host) (priority : String) : Option (Option Session) :=
  (initAnonHandshake host priority).map construct

def x509Session (host : Host) (caFile certFile keyFile crlFile priority : String) :
    Option (Option Session) :=
  (initX509Handshake host priority caFile certFile keyFile crlFile).map construct

/- Some call came back with a non-negative code. -/
def Completed (calls : List Outcome) : Prop := ∃ value, 0 ≤ value ∧ .code value ∈ calls

theorem completedCode {value : Int} : Completed [.code value] ↔ 0 ≤ value := by
  simp [Completed]

/- Calls that end the loop, whatever came before them. -/
def Outcome.decisive (isFatal : Int → Bool) : Outcome → Bool
  | .code value => decide (0 ≤ value) || isFatal value
  | .thrown => false

section
variable {isFatal : Int → Bool}

theorem completedSkip {call : Outcome} {calls : List Outcome}
    (skipped : call.decisive isFatal = false) : Completed (call :: calls) ↔ Completed calls := by
  constructor
  · rintro ⟨value,nonneg,inside⟩
    rcases List.mem_cons.mp inside with rfl | later
    · simp [Outcome.decisive,nonneg] at skipped
    · exact ⟨value,nonneg,later⟩
  · rintro ⟨value,nonneg,inside⟩
    exact ⟨value,nonneg,List.mem_cons_of_mem _ inside⟩

theorem retriedRet {old : Int} {call : Outcome} (negative : old < 0 ∧ isFatal old = false)
    (skipped : call.decisive isFatal = false) : call.ret old < 0 ∧ isFatal (call.ret old) = false := by
  cases call with
  | thrown => exact negative
  | code value => simpa [Outcome.decisive,Outcome.ret] using skipped

/- From a negative `ret` on, only a code ends the loop, and the first decisive
one does: the loop completes exactly when that code is not negative. -/
theorem loopNegative (handshakes : List Outcome) {old : Int}
    (negative : old < 0 ∧ isFatal old = false) :
    (handshakes.find? (Outcome.decisive isFatal) = none ∧
        handshakeLoop isFatal old handshakes = none) ∨
      ∃ value calls, handshakes.find? (Outcome.decisive isFatal) = some (.code value) ∧
        handshakeLoop isFatal old handshakes = some (value,calls) ∧ (Completed calls ↔ 0 ≤ value) := by
  induction handshakes generalizing old with
  | nil => exact .inl ⟨rfl,rfl⟩
  | cons call rest ih =>
    cases found : call.decisive isFatal with
    | false =>
      have again := retriedRet negative found
      rw [List.find?_cons_of_neg (by simp [found]),handshakeLoop,if_pos again]
      rcases ih again with ⟨nothing,stuck⟩ | ⟨value,calls,first,ends,exact⟩
      · exact .inl ⟨nothing,by rw [stuck]; rfl⟩
      · refine .inr ⟨value,call :: calls,first,by rw [ends]; rfl,?_⟩
        rw [completedSkip found]
        exact exact
    | true =>
      rw [List.find?_cons_of_pos found]
      cases call with
      | thrown => simp [Outcome.decisive] at found
      | code value =>
        have stops : ¬(value < 0 ∧ isFatal value = false) := by
          rintro ⟨below,retried⟩
          simp [Outcome.decisive,retried] at found
          omega
        exact .inr ⟨value,[.code value],rfl,by rw [handshakeLoop,Outcome.ret,if_neg stops],completedCode⟩

/- An exception out of the first call leaves the initial zero, and so reads as success. -/
theorem startThrown (rest : List Outcome) :
    startHandshake isFatal (.thrown :: rest) = some ⟨true,[.thrown]⟩ := rfl

/- Unless the first call throws, the first decisive call is the result. -/
theorem startDecisive (isFatal : Int → Bool) {handshakes : List Outcome} (entered : handshakes.head? ≠ some .thrown) :
    (handshakes.find? (Outcome.decisive isFatal) = none ∧ startHandshake isFatal handshakes = none) ∨
      ∃ value calls, handshakes.find? (Outcome.decisive isFatal) = some (.code value) ∧
        startHandshake isFatal handshakes = some ⟨decide (0 ≤ value),calls⟩ ∧
        (Completed calls ↔ 0 ≤ value) := by
  -- the first call decides the same from `ret = 0` as from a temporary code
  rcases handshakes with _ | ⟨call,rest⟩
  · exact .inl ⟨rfl,rfl⟩
  rcases call with value | _
  swap
  · simp at entered
  cases found : (Outcome.code value).decisive isFatal with
  | false =>
    have again : value < 0 ∧ isFatal value = false := by
      simpa [Outcome.decisive] using found
    rw [List.find?_cons_of_neg (by simp [found]),startHandshake,handshakeLoop,Outcome.ret,if_pos again]
    rcases loopNegative rest again with ⟨nothing,stuck⟩ | ⟨last,calls,first,ends,exact⟩
    · exact .inl ⟨nothing,by rw [stuck]; rfl⟩
    · refine .inr ⟨last,.code value :: calls,first,by rw [ends]; rfl,?_⟩
      rw [completedSkip found]
      exact exact
  | true =>
    have stops : ¬(value < 0 ∧ isFatal value = false) := by
      rintro ⟨below,retried⟩
      simp [Outcome.decisive,retried] at found
      omega
    rw [List.find?_cons_of_pos found]
    refine .inr ⟨value,[.code value],rfl,?_,completedCode⟩
    rw [startHandshake,handshakeLoop,Outcome.ret,if_neg stops]
    rfl

end
end Ltsm.TlsHandshake
