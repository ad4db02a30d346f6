import Ltsm.DamagedRegions
import Ltsm.ServerMessages
import Ltsm.Library.FirstMatch
import Ltsm.Library.Run

/-! The size of the screen, as the client asks for it. A request is answered by a thread of its own
or, where the screen is changed, by another thread once the X server has told the change. Nothing
raises xcbRandrScreenSetSizeEvent. -/
namespace Ltsm.ResizeNegotiation
open Library Regions ServerMessages

/- A change of a CRTC, under the number of the last request that the X server had seen. -/
structure CrtcChange where
  sequence : UInt16
  size : Size
  deriving DecidableEq, Repr

structure Sent where
  status : DesktopResizeStatus
  error : DesktopResizeError
  size : Size
  deriving DecidableEq, Repr

/- Threads that wait for the call, have its sequence or its failure, are to tell a status, are to
lower the flag, behind a failure or not, and behind a failure are to reset the rest. -/
structure Server where
  extDesktopSize : Bool
  size : Size
  displayResizeNegotiation : Bool
  displayResizeProcessed : Bool
  randrSequence : UInt16
  calls : List Size
  returned : List UInt16
  failed : Nat
  events : List CrtcChange
  statuses : List (DesktopResizeStatus × Size)
  clearing : List Bool
  resetting : Nat
  sent : List Sent
  requests : Nat
  terminated : Bool
  deriving DecidableEq, Repr

def start (extDesktopSize : Bool) (size : Size) : Server :=
  ⟨extDesktopSize,size,false,false,0,[],[],0,[],[],[],0,[],0,false⟩

/- What setRandrScreenSize comes to. -/
inductive Call
  | success (sequence : UInt16) (events : List CrtcChange)
  | failure (events : List CrtcChange)
  deriving DecidableEq, Repr

inductive Action
  | setEncodings (extDesktopSize : Bool)
  | recvDesktopSize (screens : List Region) (xcbAllow : Bool)
  | setRandrScreenSize (index : Nat) (call : Call)
  | storeSequence (index : Nat)
  | callFailed
  | crtcChange (event : CrtcChange)
  | pollEvent (geometry : Size)
  | tellStatus (index : Nat)
  | clearFlag (index : Nat)
  | resetSequence
  deriving DecidableEq, Repr

/- An exception of a thread ends the process. -/
def sendEncodingDesktopResize (status : DesktopResizeStatus) (error : DesktopResizeError) (size : Size)
    (s : Server) : Server :=
  if s.extDesktopSize then {s with sent := s.sent ++ [⟨status,error,size⟩]} else {s with terminated := true}

def desktop (screens : List Region) : Region := screens.foldl Region.join ⟨0,0,0,0⟩

def serverRecvDesktopSizeEvent (screens : List Region) (xcbAllow : Bool) (s : Server) : Server :=
  let desktop := desktop screens
  let s := {s with requests := s.requests + 1}
  if desktop.x ≠ 0 ∧ desktop.y ≠ 0 then sendEncodingDesktopResize .clientSide .invalidScreenLayout s.size s
  else if !xcbAllow then sendEncodingDesktopResize .clientSide .outOfResources ⟨0,0⟩ s
  else if s.size = desktop.toSize then sendEncodingDesktopResize .clientSide .noError s.size s
  else {s with displayResizeNegotiation := true,calls := s.calls ++ [desktop.toSize]}

def setRandrScreenSize (index : Nat) (call : Call) (s : Server) : Server :=
  match s.calls[index]? with
  | none => s
  | some _ =>
    let t := {s with calls := s.calls.eraseIdx index}
    match call with
    | .success sequence events => {t with returned := s.returned ++ [sequence],events := s.events ++ events}
    | .failure events => {t with failed := s.failed + 1,events := s.events ++ events}

def storeSequence (index : Nat) (s : Server) : Server :=
  match s.returned[index]? with
  | none => s
  | some sequence => {s with returned := s.returned.eraseIdx index,randrSequence := sequence}

def callFailed (s : Server) : Server :=
  match s.failed with
  | 0 => s
  | failed + 1 =>
    sendEncodingDesktopResize .clientSide .outOfResources s.size
      {s with failed,clearing := s.clearing ++ [true]}

/- The status of an event, where a thread is started to tell it. -/
def changedStatus (event : CrtcChange) (geometry : Size) (s : Server) : Option DesktopResizeStatus :=
  if ¬ event.size.isEmpty ∧ event.size = geometry ∧ s.extDesktopSize then
    some (if s.randrSequence = event.sequence then .clientSide else .serverRuntime)
  else none

/- pollEvent with xcbRandrScreenChangedEvent. A change of another size than the screen is found to
have is discarded. -/
def pollEvent (geometry : Size) (s : Server) : Server :=
  match s.events with
  | [] => s
  | event :: events =>
    {s with
      events
      size := if event.size.isEmpty then s.size else geometry
      displayResizeProcessed := if ¬ event.size.isEmpty ∧ event.size = geometry then false else s.displayResizeProcessed
      statuses := s.statuses ++ ((changedStatus event geometry s).map fun status => (status,geometry)).toList}

def tellStatus (index : Nat) (s : Server) : Server :=
  match s.statuses[index]? with
  | none => s
  | some (status,wsz) =>
    let t := {s with statuses := s.statuses.eraseIdx index}
    if status = .serverRuntime then sendEncodingDesktopResize status .noError wsz t
    else if s.displayResizeNegotiation then
      sendEncodingDesktopResize status .noError wsz {t with clearing := t.clearing ++ [false]}
    else t

def clearFlag (index : Nat) (s : Server) : Server :=
  match s.clearing[index]? with
  | none => s
  | some failed =>
    {s with
      clearing := s.clearing.eraseIdx index
      displayResizeNegotiation := false
      resetting := if failed then s.resetting + 1 else s.resetting}

def resetSequence (s : Server) : Server :=
  match s.resetting with
  | 0 => s
  | resetting + 1 => {s with resetting,displayResizeProcessed := false,randrSequence := 0}

def step (s : Server) (a : Action) : Server :=
  if s.terminated then s
  else
    match a with
    | .setEncodings extDesktopSize => {s with extDesktopSize}
    | .recvDesktopSize screens xcbAllow => serverRecvDesktopSizeEvent screens xcbAllow s
    | .setRandrScreenSize index call => setRandrScreenSize index call s
    | .storeSequence index => storeSequence index s
    | .callFailed => callFailed s
    | .crtcChange event => {s with events := s.events ++ [event]}
    | .pollEvent geometry => pollEvent geometry s
    | .tellStatus index => tellStatus index s
    | .clearFlag index => clearFlag index s
    | .resetSequence => resetSequence s

/- The statuses that answer a request. -/
def answers (s : Server) : Nat := s.sent.countP fun sent => sent.status = .clientSide

/- What may still come to an answer. -/
def carriers (s : Server) : Nat :=
  s.calls.length + s.failed + s.events.length + s.statuses.countP fun told => told.1 = .clientSide

/- All calls have returned, all events and threads are done. -/
def Quiet (s : Server) : Prop :=
  s.calls = [] ∧ s.returned = [] ∧ s.failed = 0 ∧ s.events = [] ∧ s.statuses = [] ∧ s.clearing = [] ∧
    s.resetting = 0

def Settled (s : Server) : Prop :=
  s.terminated = false ∧
    (Quiet s → s.displayResizeNegotiation = false ∧ s.displayResizeProcessed = false ∧ answers s = s.requests)

/- Each request that waits is carried by something; the flag is up while one waits, and behind the
last one until it has been cleared. -/
structure Tracked (s : Server) : Prop where
  runs : s.terminated = false
  processed : s.displayResizeProcessed = false
  answered : answers s ≤ s.requests
  carried : s.requests ≤ answers s + carriers s
  raised : answers s < s.requests → s.displayResizeNegotiation = true
  lowered : s.displayResizeNegotiation = true → answers s < s.requests ∨ s.clearing ≠ []

/- More is under way than is waited for. -/
def Spare (s : Server) : Prop := s.requests < answers s + carriers s

/- A client that asks knows the encoding; a call that succeeds is told by an event, which is polled
behind the store and with the size it tells; an answer is sent while a request waits; and the flag is
cleared while none does. -/
def Careful (s : Server) : Action → Prop
  | .recvDesktopSize screens xcbAllow =>
    ((desktop screens).x ≠ 0 ∧ (desktop screens).y ≠ 0) ∨ xcbAllow = false ∨ s.size = (desktop screens).toSize →
      s.extDesktopSize = true
  | .setRandrScreenSize index (.success _ events) => index < s.calls.length → events = [] → Spare s
  | .callFailed => s.failed ≠ 0 → s.extDesktopSize = true ∧ answers s < s.requests
  | .pollEvent geometry =>
    ∀ event, s.events.head? = some event → changedStatus event geometry s ≠ some .clientSide → Spare s
  | .tellStatus index =>
    ∀ status wsz, s.statuses[index]? = some (status,wsz) → status = .serverRuntime ∨ s.displayResizeNegotiation = true →
      s.extDesktopSize = true ∧ (status = .clientSide → answers s < s.requests)
  | .clearFlag index => index < s.clearing.length → s.requests ≤ answers s
  | _ => True

instance (s : Server) : Decidable (Settled s) := by unfold Settled Quiet; infer_instance

instance (s : Server) : (a : Action) → Decidable (Careful s a)
  | .setEncodings _ | .storeSequence _ | .crtcChange _ | .resetSequence | .setRandrScreenSize _ (.failure _) =>
    inferInstanceAs (Decidable True)
  | .recvDesktopSize screens xcbAllow =>
    inferInstanceAs (Decidable (((desktop screens).x ≠ 0 ∧ (desktop screens).y ≠ 0) ∨ xcbAllow = false ∨
      s.size = (desktop screens).toSize → s.extDesktopSize = true))
  | .setRandrScreenSize index (.success _ events) =>
    inferInstanceAs (Decidable (index < s.calls.length → events = [] → s.requests < answers s + carriers s))
  | .callFailed => inferInstanceAs (Decidable (s.failed ≠ 0 → s.extDesktopSize = true ∧ answers s < s.requests))
  | .pollEvent geometry =>
    inferInstanceAs (Decidable (∀ event ∈ s.events.head?, changedStatus event geometry s ≠ some .clientSide →
      s.requests < answers s + carriers s))
  | .tellStatus index =>
    decidable_of_iff (∀ told ∈ s.statuses[index]?, told.1 = .serverRuntime ∨ s.displayResizeNegotiation = true →
      s.extDesktopSize = true ∧ (told.1 = .clientSide → answers s < s.requests)) Prod.forall
  | .clearFlag index => inferInstanceAs (Decidable (index < s.clearing.length → s.requests ≤ answers s))

section
variable {s : Server} {status : DesktopResizeStatus} {error : DesktopResizeError} {size : Size}

theorem toldCount {index : Nat} (there : s.statuses[index]? = some (status,size)) :
    s.statuses.countP (fun told => told.1 = .clientSide) =
      (s.statuses.eraseIdx index).countP (fun told => told.1 = .clientSide) +
        if status = .clientSide then 1 else 0 := by
  rw [(permAt there).countP_eq,List.countP_cons]
  simp only [decide_eq_true_eq]

/- Behind an exception nothing is tracked. -/
theorem sendTracked : Tracked (sendEncodingDesktopResize status error size s) ↔
    s.extDesktopSize = true ∧ Tracked {s with sent := s.sent ++ [⟨status,error,size⟩]} := by
  unfold sendEncodingDesktopResize
  split
  · rename_i ext
    exact (and_iff_right ext).symm
  · rename_i unknown
    exact iff_of_false (fun tracked => absurd tracked.runs (by simp)) fun both => unknown both.1

theorem sentCount (l : List Sent) (next : Sent) :
    (l ++ [next]).countP (fun sent => sent.status = .clientSide) =
      l.countP (fun sent => sent.status = .clientSide) + if next.status = .clientSide then 1 else 0 := by
  simp [List.countP_append,List.countP_singleton]

theorem requestAnswered (tracked : Tracked s) :
    Tracked (sendEncodingDesktopResize .clientSide error size {s with requests := s.requests + 1}) ↔
      s.extDesktopSize = true := by
  obtain ⟨runs,processed,answered,carried,raised,lowered⟩ := tracked
  refine sendTracked.trans (and_iff_left ⟨runs,processed,?_,?_,?_,?_⟩)
  all_goals simp only [answers,carriers,sentCount,↓reduceIte] at *
  · omega
  · omega
  · exact fun waits => raised (by omega)
  · exact fun flag => (lowered flag).imp_left (by omega)

theorem desktopKeeps (screens : List Region) (xcbAllow : Bool) (tracked : Tracked s) :
    Tracked (serverRecvDesktopSizeEvent screens xcbAllow s) ↔ Careful s (.recvDesktopSize screens xcbAllow) := by
  unfold serverRecvDesktopSizeEvent Careful
  dsimp only
  generalize desktop screens = desktop
  split
  · rename_i apart
    exact (requestAnswered tracked).trans (by simp [apart])
  · rename_i joined
    split
    · rename_i off
      exact (requestAnswered tracked).trans (by simp_all)
    · rename_i on
      split
      · rename_i same
        exact (requestAnswered tracked).trans (by simp [same])
      · rename_i other
        refine iff_of_true ?_ (by simp_all)
        obtain ⟨runs,processed,answered,carried,raised,lowered⟩ := tracked
        refine ⟨runs,processed,?_,?_,?_,?_⟩
        all_goals simp only [answers,carriers,List.length_append,List.length_singleton] at *
        · omega
        · omega
        · exact fun _ => trivial
        · exact fun _ => .inl (by omega)

theorem callKeeps (index : Nat) (call : Call) (tracked : Tracked s) :
    Tracked (setRandrScreenSize index call s) ↔ Careful s (.setRandrScreenSize index call) := by
  unfold setRandrScreenSize
  split
  · rename_i absent
    refine iff_of_true tracked ?_
    have beyond := List.getElem?_eq_none_iff.mp absent
    cases call with
    | success sequence events => exact fun inside => absurd inside (by omega)
    | failure events => trivial
  · rename_i there
    obtain ⟨inside,_⟩ := List.getElem?_eq_some_iff.mp there
    have shorter := List.length_eraseIdx_of_lt inside
    obtain ⟨runs,processed,answered,carried,raised,lowered⟩ := tracked
    cases call with
    | failure events =>
      refine iff_of_true ⟨runs,processed,answered,?_,raised,lowered⟩ trivial
      simp only [answers,carriers,List.length_append] at *
      omega
    | success sequence events =>
      refine ⟨fun next _ none => ?_,fun meets => ⟨runs,processed,answered,?_,raised,lowered⟩⟩
      · have := next.carried
        subst none
        simp only [Spare,answers,carriers,List.append_nil] at *
        omega
      · have spare := meets inside
        cases events with
        | nil =>
          have := spare rfl
          simp only [Spare,answers,carriers,List.append_nil] at *
          omega
        | cons event events =>
          simp only [answers,carriers,List.length_append,List.length_cons] at *
          omega

theorem failedKeeps (tracked : Tracked s) : Tracked (callFailed s) ↔ Careful s .callFailed := by
  unfold callFailed Careful
  split
  · rename_i none
    exact iff_of_true tracked fun some => absurd none some
  · rename_i failed more
    refine sendTracked.trans ?_
    obtain ⟨runs,processed,answered,carried,raised,lowered⟩ := tracked
    constructor
    · rintro ⟨ext,next⟩ _
      have := next.answered
      simp only [answers,sentCount,↓reduceIte] at *
      exact ⟨ext,by omega⟩
    · intro meets
      obtain ⟨ext,waits⟩ := meets (by omega)
      refine ⟨ext,runs,processed,?_,?_,?_,?_⟩
      all_goals simp only [answers,carriers,sentCount,↓reduceIte] at *
      · omega
      · omega
      · exact fun more => raised (by omega)
      · exact fun _ => .inr (by simp)

theorem pollKeeps (geometry : Size) (tracked : Tracked s) :
    Tracked (pollEvent geometry s) ↔ Careful s (.pollEvent geometry) := by
  unfold pollEvent Careful
  split
  · rename_i none
    refine iff_of_true tracked fun event here => ?_
    rw [none] at here
    cases here
  · rename_i event events here
    obtain ⟨runs,processed,answered,carried,raised,lowered⟩ := tracked
    have told : (s.statuses ++ ((changedStatus event geometry s).map fun status => (status,geometry)).toList).countP
        (fun told => told.1 = .clientSide) = s.statuses.countP (fun told => told.1 = .clientSide) +
          if changedStatus event geometry s = some .clientSide then 1 else 0 := by
      cases changedStatus event geometry s <;> simp [List.countP_append,List.countP_singleton]
    have more : s.events.length = events.length + 1 := by rw [here,List.length_cons]
    constructor
    · intro next other first apart
      obtain rfl : event = other := by simpa [here] using first
      have := next.carried
      simp only [Spare,answers,carriers,told,if_neg apart] at *
      omega
    · intro meets
      refine ⟨runs,by simp [processed],answered,?_,raised,lowered⟩
      by_cases known : changedStatus event geometry s = some .clientSide
      · simp only [answers,carriers,told,if_pos known] at *
        omega
      · have spare := meets event (by rw [here]; rfl) known
        simp only [Spare,answers,carriers,told,if_neg known] at *
        omega

theorem tellKeeps (index : Nat) (tracked : Tracked s) :
    Tracked (tellStatus index s) ↔ Careful s (.tellStatus index) := by
  unfold tellStatus
  split
  · rename_i absent
    refine iff_of_true tracked fun status wsz here => ?_
    rw [absent] at here
    cases here
  · rename_i status wsz here
    have told := toldCount here
    obtain ⟨runs,processed,answered,carried,raised,lowered⟩ := tracked
    have reads : Careful s (.tellStatus index) ↔ (status = .serverRuntime ∨ s.displayResizeNegotiation = true →
        s.extDesktopSize = true ∧ (status = .clientSide → answers s < s.requests)) := by
      refine ⟨fun all => all status wsz here,fun meets other size same => ?_⟩
      obtain ⟨⟩ := here.symm.trans same
      exact meets
    rw [reads]
    dsimp only
    split
    · rename_i runtime
      subst runtime
      refine sendTracked.trans ⟨fun both _ => ⟨both.1,fun same => by cases same⟩,fun meets => ?_⟩
      refine ⟨(meets (.inl rfl)).1,runs,processed,?_,?_,?_,?_⟩
      all_goals simp only [answers,carriers,sentCount,reduceCtorEq,↓reduceIte,Nat.add_zero] at *
      · exact answered
      · omega
      · exact raised
      · exact lowered
    · rename_i other
      split
      · rename_i flag
        refine sendTracked.trans ⟨fun both _ => ⟨both.1,fun same => ?_⟩,fun meets => ?_⟩
        · have next := both.2.answered
          simp only [answers,sentCount,if_pos same] at *
          omega
        · obtain ⟨ext,waits⟩ := meets (.inr flag)
          by_cases same : status = .clientSide
          · have before := waits same
            refine ⟨ext,runs,processed,?_,?_,fun _ => flag,fun _ => .inr (by simp)⟩
            all_goals simp only [answers,carriers,sentCount,if_pos same] at *
            · omega
            · omega
          · refine ⟨ext,runs,processed,?_,?_,fun _ => flag,fun _ => .inr (by simp)⟩
            all_goals simp only [answers,carriers,sentCount,if_neg same] at *
            · omega
            · omega
      · rename_i down
        refine iff_of_true ⟨runs,processed,answered,?_,raised,lowered⟩ fun speaks => absurd speaks (by simp [other,down])
        -- with the flag down no request waits
        have done := mt raised down
        simp only [answers,carriers] at *
        omega

theorem clearKeeps (index : Nat) (tracked : Tracked s) :
    Tracked (clearFlag index s) ↔ Careful s (.clearFlag index) := by
  unfold clearFlag Careful
  split
  · rename_i absent
    exact iff_of_true tracked fun inside => absurd (List.getElem?_eq_none_iff.mp absent) (by omega)
  · rename_i failed there
    obtain ⟨inside,_⟩ := List.getElem?_eq_some_iff.mp there
    obtain ⟨runs,processed,answered,carried,raised,lowered⟩ := tracked
    constructor
    · intro next _
      by_contra waits
      exact absurd (next.raised (not_le.mp waits)) (by simp)
    · intro meets
      exact ⟨runs,processed,answered,carried,fun waits => absurd (meets inside) (not_le.mpr waits),
        fun flag => absurd flag (by simp)⟩

theorem trackedKeeps (a : Action) (tracked : Tracked s) : Tracked (step s a) ↔ Careful s a := by
  unfold step
  rw [if_neg (by simp [tracked.runs])]
  obtain ⟨runs,processed,answered,carried,raised,lowered⟩ := id tracked
  cases a with
  | setEncodings extDesktopSize => exact iff_of_true ⟨runs,processed,answered,carried,raised,lowered⟩ trivial
  | recvDesktopSize screens xcbAllow => exact desktopKeeps screens xcbAllow tracked
  | setRandrScreenSize index call => exact callKeeps index call tracked
  | storeSequence index =>
    refine iff_of_true (show Tracked (storeSequence index s) from ?_) trivial
    unfold storeSequence
    split
    · exact tracked
    · exact ⟨runs,processed,answered,carried,raised,lowered⟩
  | callFailed => exact failedKeeps tracked
  | crtcChange event =>
    refine iff_of_true ⟨runs,processed,answered,?_,raised,lowered⟩ trivial
    simp only [answers,carriers,List.length_append,List.length_singleton] at *
    omega
  | pollEvent geometry => exact pollKeeps geometry tracked
  | tellStatus index => exact tellKeeps index tracked
  | clearFlag index => exact clearKeeps index tracked
  | resetSequence =>
    refine iff_of_true (show Tracked (resetSequence s) from ?_) trivial
    unfold resetSequence
    split
    · exact tracked
    · exact ⟨runs,rfl,answered,carried,raised,lowered⟩

theorem trackedSettled (tracked : Tracked s) : Settled s := by
  obtain ⟨runs,processed,answered,carried,raised,lowered⟩ := tracked
  refine ⟨runs,fun ⟨calls,_,failed,events,statuses,clearing,_⟩ => ?_⟩
  have all : answers s = s.requests := by
    simp only [carriers,calls,failed,events,statuses,List.length_nil,List.countP_nil] at carried
    omega
  refine ⟨?_,processed,all⟩
  by_contra flag
  rcases lowered (by simpa using flag) with waits | behind
  · omega
  · exact behind clearing

end

theorem trackedStart (extDesktopSize : Bool) (size : Size) : Tracked (start extDesktopSize size) :=
  ⟨rfl,rfl,Nat.le_refl _,Nat.zero_le _,fun waits => absurd waits (Nat.lt_irrefl 0),
    fun flag => absurd flag Bool.false_ne_true⟩

/- The ledger is kept by exactly the runs whose steps all meet the condition. -/
theorem trackedIff (extDesktopSize : Bool) (size : Size) (actions : List Action) :
    Always step Tracked (start extDesktopSize size) actions ↔ Meets step Careful (start extDesktopSize size) actions :=
  alwaysIff (I := fun _ => True) (fun _ _ _ => trivial) (fun _ a _ tracked => trackedKeeps a tracked) trivial
    (trackedStart extDesktopSize size) actions

theorem negotiationSettles (extDesktopSize : Bool) (size : Size) (actions : List Action)
    (careful : Meets step Careful (start extDesktopSize size) actions) :
    Always step Settled (start extDesktopSize size) actions := fun first front =>
  trackedSettled ((trackedIff extDesktopSize size actions).mpr careful first front)

def screen : Region := ⟨0,0,1024,768⟩

def changed : Call := .success 7 [⟨7,⟨1024,768⟩⟩]

theorem requestSettles : Always step Settled (start true ⟨800,600⟩)
    [.recvDesktopSize [screen] true,.setRandrScreenSize 0 changed,.storeSequence 0,.pollEvent ⟨1024,768⟩,
      .tellStatus 0,.clearFlag 0] :=
  negotiationSettles true ⟨800,600⟩ _ (by decide +kernel)

/- The event is polled before the sequence is stored. -/
theorem pollOvertakes : ¬ ∀ actions, Always step Settled (start true ⟨800,600⟩) actions := by
  intro all
  have stuck := all [.recvDesktopSize [screen] true,.setRandrScreenSize 0 changed,.pollEvent ⟨1024,768⟩,
    .storeSequence 0,.tellStatus 0] _ (List.prefix_refl _)
  exact absurd stuck (by decide +kernel)

end Ltsm.ResizeNegotiation
