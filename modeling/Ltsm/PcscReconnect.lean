import Ltsm.Library.Run
import Mathlib.Data.Bool.Basic

/-! The card service's remote connection over the reconnections of a desktop session: the one
object, the pointer of the session bus to it, and the local clients that find it through a weak
pointer of theirs. -/
namespace Ltsm.PcscReconnect
open Library

/- The commands that clientAction knows; `notUsed` are the others. -/
inductive Command
  | establishContext
  | releaseContext
  | connect
  | reconnect
  | disconnect
  | beginTransaction
  | endTransaction
  | transmit
  | status
  | control
  | getAttrib
  | setAttrib
  | cancel
  | getVersion
  | getReaderState
  | waitReaderStateChangeStart
  | waitReaderStateChangeStop
  | notUsed
  deriving DecidableEq, Repr

namespace Command

/- The commands that are not carried out without the remote. -/
def needsRemote : Command → Bool
  | getVersion | getReaderState | waitReaderStateChangeStop | notUsed => false
  | _ => true

/- Whether replyError sends anything; proxyReaderStateChangeStart does not call it either. -/
def replyError : Command → Bool
  | cancel | getVersion | getReaderState | waitReaderStateChangeStart | waitReaderStateChangeStop | notUsed => false
  | _ => true

end Command

/- Where the coroutine of a connectChannel stands. -/
inductive Stage
  | spawned
  | connecting
  | handshaking
  deriving DecidableEq, Repr

/- How a wait of that coroutine ends: with what it was for, with another wait to come, with a wrong
answer of the peer, or with an error, which ends it at once. -/
inductive Outcome
  | done
  | again
  | refused
  | failed
  deriving DecidableEq, Repr

/- `opened` is is_open of the socket, which is so from the first attempt on. -/
structure Remote where
  opened : Bool
  error : Bool
  deriving DecidableEq, Repr

/- A client's coroutine, which may have outlived its place in clients_, with the command that it is
at. It is linked if there was a remote to make its weak pointer from. -/
structure Client where
  listed : Bool
  linked : Bool
  command : Option Command
  deriving DecidableEq, Repr

/- What is to be seen of a run: a use of the remote and whether there is one, a request that was
refused for want of it and whether the client was told, a connectChannel and whether the service
has a remote to be established with. -/
inductive Event
  | used (present : Bool)
  | refused (answered : Bool)
  | connect (served : Bool)
  deriving DecidableEq, Repr

def Good : Event → Prop
  | .used present => present = true
  | .refused answered => answered = true
  | .connect served => served = true

instance (event : Event) : Decidable (Good event) := by
  unfold Good
  cases event <;> infer_instance

/- `holders` are the clients whose requests hold the object; `crashed` is after a use without one. -/
structure Session where
  remote : Option Remote
  holders : List Nat
  opening : List Stage
  listeners : Nat
  clients : Nat → Option Client
  next : Nat
  stopping : Bool
  crashed : Bool
  log : List Event

inductive Action
  | connectChannel
  | disconnectChannel
  | channelRan (i : Nat) (outcome : Outcome)
  | accepted
  | requested (id : Nat) (command : Command)
  | finished (id : Nat) (success remoteFailed : Bool)
  | thrown (id : Nat)
  | stop
  deriving DecidableEq, Repr

namespace Session

/- After PcscSessionBus::start. -/
def start : Session := ⟨some ⟨false,false⟩,[],[],0,fun _ => none,11,false,false,[]⟩

def note (s : Session) (event : Event) : Session := {s with log := s.log ++ [event]}

/- A use of remote_ without a look whether it is set. -/
def useRemote (s : Session) (go : Remote → Session → Session) : Session :=
  match s.remote with
  | some remote => go remote (note s (.used true))
  | none => {note s (.used false) with crashed := true}

/- A weak pointer is as good as the object. -/
def alive (s : Session) : Bool := s.remote.isSome || !s.holders.isEmpty

/- A use of the object by a member function of its own that has been waiting. -/
def useObject (s : Session) (go : Session → Session) : Session :=
  if alive s then go (note s (.used true)) else {note s (.used false) with crashed := true}

def setClient (s : Session) (id : Nat) (client : Option Client) : Session :=
  {s with clients := Function.update s.clients id client}

/- The coroutine of a client is over; the rest is for those that are still in clients_. -/
def clientStoppedHandler (s : Session) (id : Nat) (client : Client) : Session :=
  if client.listed then useRemote s fun _ s => setClient s id none else setClient s id none

def connectChannel (s : Session) : Session :=
  useRemote (note s (.connect s.remote.isSome)) fun remote s =>
    if remote.opened then s else {s with opening := s.opening ++ [.spawned]}

/- One run of the coroutine of a connectChannel between two waits. -/
def channelRan (s : Session) (i : Nat) (outcome : Outcome) : Session :=
  match s.opening[i]?,outcome with
  | some .spawned,_ =>
    useRemote s fun remote s =>
      {s with remote := some {remote with opened := true},opening := s.opening.set i .connecting}
  | some .connecting,.done => useRemote s fun _ s => {s with opening := s.opening.set i .handshaking}
  | some .connecting,.again => useObject s id
  | some .connecting,.failed => {s with opening := s.opening.eraseIdx i}
  | some .handshaking,.done =>
    useObject s fun s => {s with opening := s.opening.eraseIdx i,listeners := s.listeners + 1}
  | some .handshaking,.again => useObject s id
  | some .handshaking,.refused => useObject s fun s => {s with opening := s.opening.eraseIdx i}
  | some .handshaking,.failed => {s with opening := s.opening.eraseIdx i}
  | _,_ => s

def accepted (s : Session) : Session :=
  if 0 < s.listeners then {setClient s s.next (some ⟨true,s.remote.isSome,none⟩) with next := s.next + 1} else s

/- A command up to its first wait for the remote. -/
def requested (s : Session) (id : Nat) (command : Command) : Session :=
  match s.clients id with
  | some ⟨listed,linked,none⟩ =>
    let s := setClient s id (some ⟨listed,linked,some command⟩)
    if command.needsRemote then
      if linked && alive s then {s with holders := id :: s.holders} else note s (.refused command.replyError)
    else s
  | _ => s

/- acceptHandler behind a command: the remote is asked for an error before the next command. -/
def finished (s : Session) (id : Nat) (success remoteFailed : Bool) : Session :=
  match s.clients id with
  | some ⟨listed,linked,some _⟩ =>
    useRemote {s with holders := s.holders.erase id} fun remote s =>
      let error := remote.error || remoteFailed
      let s := {s with remote := some {remote with error},stopping := s.stopping || error}
      if success && !error then setClient s id (some ⟨listed,linked,none⟩)
      else clientStoppedHandler s id ⟨listed,linked,none⟩
  | _ => s

def thrown (s : Session) (id : Nat) : Session :=
  match s.clients id with
  | some client => clientStoppedHandler {s with holders := s.holders.erase id} id client
  | none => s

/- What acceptHandler posts after an error. The coroutines that wait for a command end; one that is
at a command goes on without its place in clients_. -/
def stop (s : Session) : Session :=
  if s.stopping then
    {s with
      remote := none
      opening := []
      listeners := 0
      clients := fun id => match s.clients id with
        | some ⟨_,linked,some command⟩ => some ⟨false,linked,some command⟩
        | _ => none}
  else s

def step (s : Session) (action : Action) : Session :=
  if s.crashed then s
  else match action with
    | .connectChannel => connectChannel s
    | .disconnectChannel => {s with remote := none}
    | .channelRan i outcome => channelRan s i outcome
    | .accepted => accepted s
    | .requested id command => requested s id command
    | .finished id success remoteFailed => finished s id success remoteFailed
    | .thrown id => thrown s id
    | .stop => stop s

/- What a run of the coroutine of a connectChannel takes for granted. -/
def Ready (s : Session) : Option Stage → Outcome → Prop
  | some .spawned,_ => s.remote.isSome = true
  | some .connecting,.done => s.remote.isSome = true
  | some .connecting,.again => alive s = true
  | some .handshaking,.done => alive s = true
  | some .handshaking,.again => alive s = true
  | some .handshaking,.refused => alive s = true
  | _,_ => True

/- The remote is there whenever the session takes it for granted, and no command that is refused
for want of it is one of the two that are refused without a word. -/
def Proper (s : Session) (action : Action) : Prop :=
  s.crashed = false → match action with
    | .connectChannel => s.remote.isSome = true
    | .channelRan i outcome => Ready s s.opening[i]? outcome
    | .requested id command =>
      match s.clients id with
      | some ⟨_,linked,none⟩ => command.needsRemote = true → (linked && alive s) = true ∨ command.replyError = true
      | _ => True
    | .finished id _ _ =>
      match s.clients id with
      | some ⟨_,_,some _⟩ => s.remote.isSome = true
      | _ => True
    | .thrown id =>
      match s.clients id with
      | some client => client.listed = true → s.remote.isSome = true
      | none => True
    | _ => True

/- What a step has noted is good exactly under `C`. -/
def Notes (s next : Session) (C : Prop) : Prop :=
  ∃ added, next.log = s.log ++ added ∧ (C ↔ ∀ event ∈ added, Good event)

section
variable {s next : Session} {C : Prop}

theorem notesNone (same : next.log = s.log) (all : C) : Notes s next C :=
  ⟨[],same.trans (List.append_nil _).symm,iff_of_true all (List.forall_mem_nil _)⟩

theorem notesOne {event : Event} (one : next.log = s.log ++ [event]) : Notes s next (Good event) :=
  ⟨[event],one,(List.forall_mem_singleton).symm⟩

theorem notesTrans {last : Session} {D : Prop} (first : Notes s next C) (second : Notes next last D) :
    Notes s last (C ∧ D) := by
  obtain ⟨added,same,good⟩ := first
  obtain ⟨more,also,better⟩ := second
  refine ⟨added ++ more,?_,?_⟩
  · rw [also,same,List.append_assoc]
  · rw [List.forall_mem_append,good,better]

theorem notesIff {D : Prop} (notes : Notes s next C) (same : C ↔ D) : Notes s next D := by
  obtain ⟨added,log,good⟩ := notes
  exact ⟨added,log,same.symm.trans good⟩

/- With the remote there, the rest decides. -/
theorem notesUse {go : Remote → Session → Session}
    (rest : ∀ remote, s.remote = some remote →
      Notes (note s (.used true)) (go remote (note s (.used true))) True) :
    Notes s (useRemote s go) (s.remote.isSome = true) := by
  unfold useRemote
  cases there : s.remote with
  | none => exact notesIff (@notesOne s _ (.used false) rfl) (iff_of_false Bool.false_ne_true Bool.false_ne_true)
  | some remote =>
    have first : Notes s (note s (.used true)) (Good (.used true)) := notesOne rfl
    exact notesIff (notesTrans first (rest remote there)) (iff_of_true ⟨rfl,trivial⟩ rfl)

theorem notesObject {go : Session → Session}
    (rest : (go (note s (.used true))).log = (note s (.used true)).log) :
    Notes s (useObject s go) (alive s = true) := by
  unfold useObject
  split
  case isTrue there => exact notesIff (@notesOne s _ (.used true) rest) (iff_of_true rfl there)
  case isFalse gone =>
    exact notesIff (@notesOne s _ (.used false) rfl) (iff_of_false Bool.false_ne_true gone)

theorem notesStopped (id : Nat) (client : Client) :
    Notes s (clientStoppedHandler s id client) (client.listed = true → s.remote.isSome = true) := by
  unfold clientStoppedHandler
  split
  case isTrue listed =>
    refine notesIff (notesUse fun remote there => notesNone rfl trivial) ?_
    exact ⟨fun there _ => there,fun there => there listed⟩
  case isFalse gone => exact notesNone rfl (fun listed => absurd listed gone)

theorem notesConnect : Notes s (connectChannel s) (s.remote.isSome = true) := by
  unfold connectChannel
  have first : Notes s (note s (.connect s.remote.isSome)) (Good (.connect s.remote.isSome)) := notesOne rfl
  refine notesIff (notesTrans first (notesUse fun remote there => notesNone ?_ trivial)) and_self_iff
  split <;> rfl

theorem notesChannel (i : Nat) (outcome : Outcome) :
    Notes s (channelRan s i outcome) (Ready s s.opening[i]? outcome) := by
  unfold channelRan
  generalize s.opening[i]? = stage
  cases stage with
  | none => exact notesNone rfl trivial
  | some stage =>
    cases stage with
    | spawned => exact notesUse fun remote there => notesNone rfl trivial
    | connecting =>
      cases outcome with
      | done => exact notesUse fun remote there => notesNone rfl trivial
      | again => exact notesObject rfl
      | refused | failed => exact notesNone rfl trivial
    | handshaking =>
      cases outcome with
      | done | again | refused => exact notesObject rfl
      | failed => exact notesNone rfl trivial

theorem notesRequested (id : Nat) (command : Command) :
    Notes s (requested s id command) (match s.clients id with
      | some ⟨_,linked,none⟩ => command.needsRemote = true → (linked && alive s) = true ∨ command.replyError = true
      | _ => True) := by
  unfold requested
  split
  case h_1 listed linked here =>
    split
    case isFalse free => exact notesNone rfl (fun needs => absurd needs free)
    case isTrue needs =>
      dsimp only
      split
      case isTrue there => exact notesNone rfl (fun _ => .inl there)
      case isFalse gone =>
        refine notesIff (@notesOne s _ (.refused command.replyError) rfl) ?_
        exact ⟨fun told _ => .inr told,fun either => (either needs).resolve_left gone⟩
  case h_2 => exact notesNone rfl trivial

theorem notesFinished (id : Nat) (success remoteFailed : Bool) :
    Notes s (finished s id success remoteFailed) (match s.clients id with
      | some ⟨_,_,some _⟩ => s.remote.isSome = true
      | _ => True) := by
  unfold finished
  split
  case h_1 listed linked command here =>
    have released : Notes s {s with holders := s.holders.erase id} True := notesNone rfl trivial
    refine notesIff (notesTrans released (notesUse fun remote there => ?_)) (and_iff_right trivial)
    dsimp only
    split
    case isTrue => exact notesNone rfl trivial
    case isFalse =>
      -- the remote that has just been asked is there for the second use as well
      refine notesIff (notesTrans (notesNone rfl trivial) (notesStopped id _)) ?_
      exact iff_of_true ⟨trivial,fun _ => rfl⟩ trivial
  case h_2 => exact notesNone rfl trivial

theorem notesThrown (id : Nat) :
    Notes s (thrown s id) (match s.clients id with
      | some client => client.listed = true → s.remote.isSome = true
      | none => True) := by
  unfold thrown
  split
  case h_1 client here =>
    have released : Notes s {s with holders := s.holders.erase id} True := notesNone rfl trivial
    exact notesIff (notesTrans released (notesStopped id client)) (and_iff_right trivial)
  case h_2 => exact notesNone rfl trivial

theorem notesStep (action : Action) : Notes s (step s action) (Proper s action) := by
  unfold step
  split
  case isTrue crashed => exact notesNone rfl (fun going => absurd (going.symm.trans crashed) Bool.false_ne_true)
  case isFalse going =>
    have running : s.crashed = false := Bool.eq_false_iff.mpr going
    have open_ : ∀ {C : Prop}, C ↔ (s.crashed = false → C) := ⟨fun here _ => here,fun here => here running⟩
    cases action with
    | connectChannel => exact notesIff notesConnect open_
    | disconnectChannel => exact notesNone rfl (fun _ => trivial)
    | channelRan i outcome => exact notesIff (notesChannel i outcome) open_
    | accepted =>
      refine notesNone ?_ (fun _ => trivial)
      dsimp only [accepted]
      split <;> rfl
    | requested id command => exact notesIff (notesRequested id command) open_
    | finished id success remoteFailed => exact notesIff (notesFinished id success remoteFailed) open_
    | thrown id => exact notesIff (notesThrown id) open_
    | stop =>
      refine notesNone ?_ (fun _ => trivial)
      dsimp only [stop]
      split <;> rfl

end
end Session

open Session

/- A run never uses a remote that is not there, tells every client whose request it refuses for want
of one, and has one for every connectChannel, exactly if each of its steps finds what it needs. -/
theorem neverAbsentIff (actions : List Action) :
    (∀ event ∈ (run step start actions).log, Good event) ↔ Meets step Proper start actions := by
  have grown := @meetsLog Session Action Event step Proper (fun _ => True) Session.log Good
    (fun _ _ _ => trivial) (fun s action _ => notesStep action) start trivial actions
  rw [grown]
  exact and_iff_right (List.forall_mem_nil _)

/- The desktop session is disconnected once, with nothing going on, and connected again. -/
def reconnection : List Action :=
  [.connectChannel,.channelRan 0 .done,.channelRan 0 .done,.channelRan 0 .done,.disconnectChannel,.connectChannel]

theorem reconnectionCrashes :
    (run step start reconnection).crashed = true ∧
      .connect false ∈ (run step start reconnection).log ∧ .used false ∈ (run step start reconnection).log ∧
      ¬∀ event ∈ (run step start reconnection).log, Good event := by
  have uses : .used false ∈ (run step start reconnection).log := by decide
  refine ⟨by decide,by decide,uses,fun good => ?_⟩
  exact Bool.false_ne_true (good _ uses)

end Ltsm.PcscReconnect
