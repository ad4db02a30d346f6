import Ltsm.ChannelEnds
import Ltsm.Library.Run

/-! Data that is still under way while one end closes its channel. -/
namespace Ltsm.ChannelEnds
open Channel ChannelClient Library

/- The data a step hands to an end while the session lasts. -/
def arrives (s : Ends) : Action → Option (Side × UInt8 × List UInt8)
  | .deliver side _ _ =>
    if s.ended then none
    else match s.incoming side with
      | .data id buf :: _ => some (side,id,buf)
      | _ => none
  | _ => none

/- Data leaves the session running and the other channels as they were. -/
def Benign (ep : Endpoint) (s : Ends) (a : Action) : Prop :=
  ∀ side id buf, arrives s a = some (side,id,buf) → (step ep s a).ended = false ∧
    ∀ j, id ≠ j → ((step ep s a).endOf side).findChannel j = (s.endOf side).findChannel j

/- Data comes to a connector that is there, connected, running and of the phase. -/
def Awaited (s : Ends) (a : Action) : Prop :=
  ∀ side id buf, arrives s a = some (side,id,buf) →
    ∃ c, (s.endOf side).findChannel id = some c ∧ takesData (side = .server) (s.endOf side) c = true

section
variable {ep : Endpoint} {s : Ends} {a : Action} {side : Side} {id : UInt8} {buf : List UInt8} {e : End}

/- What is not awaited ends in an exception. -/
theorem dataThrows (server : Bool) (id : UInt8) (buf : List UInt8) (e : End) :
    (recvChannelData server id buf e).threw = false ↔
      ∃ c, e.findChannel id = some c ∧ takesData server e c = true := by
  rw [recvChannelData]
  cases found : e.findChannel id with
  | none => simp
  | some c =>
    cases takes : takesData server e c with
    | false => simp [takes]
    | true =>
      simp only [Bool.true_eq_false,if_false,Option.some.injEq,exists_eq_left',takes,iff_true]
      split <;> rfl

theorem dataOthers (server : Bool) (buf : List UInt8) {j : UInt8} (other : id ≠ j) (e : End) :
    (recvChannelData server id buf e).after.findChannel j = e.findChannel j := by
  rw [recvChannelData]
  split
  · rfl
  split
  · rfl
  split
  · rfl
  · refine findUpdate (fun c here => ?_) e.channels
    rw [of_decide_eq_true here]
    exact ⟨decide_eq_false other,decide_eq_false (of_decide_eq_true here ▸ other)⟩

theorem arrivesSource (arrived : arrives s a = some (side,id,buf)) :
    s.ended = false ∧ ∃ os starts rest, a = .deliver side os starts ∧ s.incoming side = .data id buf :: rest := by
  cases a with
  | deliver receiver os starts =>
    unfold arrives at arrived
    dsimp only at arrived
    split at arrived <;> try contradiction
    rename_i alive
    split at arrived <;> try contradiction
    rename_i incoming
    cases arrived
    exact ⟨Bool.eq_false_iff.mpr alive,os,starts,_,rfl,incoming⟩
  | _ => simp [arrives] at arrived

theorem dropEnd (s : Ends) (side other : Side) : (s.drop side).endOf other = s.endOf other := by
  cases side <;> cases other <;> rfl

theorem handledEnded (s : Ends) (side : Side) (handler : End → Handled) :
    (s.handle side handler).ended = (handler (s.endOf side)).threw := by
  cases side <;> rfl

theorem handledEnd {handler : End → Handled} (safe : (handler (s.endOf side)).threw = false) :
    (s.handle side handler).endOf side = (handler (s.endOf side)).after := by
  cases side <;> simp_all [Ends.handle,Ends.endOf]

theorem stepArrives (arrived : arrives s a = some (side,id,buf)) :
    step ep s a = (s.drop side).handle side (recvChannelData (side = .server) id buf) := by
  obtain ⟨alive,os,starts,rest,rfl,incoming⟩ := arrivesSource arrived
  unfold step
  rw [if_neg (by simp [alive])]
  simp only [deliver,incoming]
  cases side <;> rfl

theorem benignAwaited (ep : Endpoint) (s : Ends) (a : Action) : Benign ep s a ↔ Awaited s a := by
  constructor
  · intro benign side id buf arrived
    have running := (benign side id buf arrived).1
    rw [stepArrives arrived,handledEnded,dropEnd] at running
    exact (dataThrows (side = .server) id buf (s.endOf side)).mp running
  · intro awaited side id buf arrived
    have safe := (dataThrows (side = .server) id buf (s.endOf side)).mpr (awaited side id buf arrived)
    rw [← dropEnd s side side] at safe
    rw [stepArrives arrived,handledEnded]
    refine ⟨safe,fun j other => ?_⟩
    rw [handledEnd safe,dataOthers _ buf other,dropEnd]

end

/- Over a whole run, whatever the ends close and send in between. -/
theorem racesBenignIff (ep : Endpoint) (actions : List Action) :
    Meets (step ep) (Benign ep) start actions ↔ Meets (step ep) Awaited start actions :=
  meetsCongr (P := fun _ => True) (fun _ _ _ _ => trivial) (fun s a _ => benignAwaited ep s a) trivial

def willingOs : Os :=
  ⟨fun _ => true,fun _ => true,fun _ _ => false,id,fun _ => true,fun _ _ _ => true,fun _ => false,
    fun _ => true,id,fun _ _ => false⟩

/- Two files of the client behind two sockets of the server. The first channel is closed
on the server while data for it is under way. -/
def closeRace : List Action :=
  let opening (path : String) : List Action :=
    [.createChannel willingOs (.ofParts .file path .readOnly) (.ofParts .unix "/run/b" .writeOnly) {flags := 2},
      .deliver .client willingOs true,.deliver .server willingOs true,.deliver .client willingOs true]
  opening "/tmp/a" ++ opening "/tmp/b" ++ [.sendData .client 1 [65],.destroyChannel 1,.destroyThread .server 0]

theorem lateDataEndsSession : ¬∀ ep actions, Meets (step ep) (Benign ep) start actions := by
  intro claim
  let ep : Endpoint := ⟨false,true,fun _ _ _ => true,fun _ => .broken⟩
  have late := (meetsAppend.mp (claim ep (closeRace ++ [.deliver .server willingOs true]))).2.1
  have running := (late .server 1 [65] (by decide +kernel)).1
  exact absurd running (by decide +kernel)

end Ltsm.ChannelEnds
