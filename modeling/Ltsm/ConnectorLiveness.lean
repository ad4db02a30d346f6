import Ltsm.LivenessMoves

/-! The watch over the connectors. A connector that leaves more than three pings unanswered
is given up; an answer clears what is held against it, its connection does not. What each
connector has really missed is kept beside the service. -/
namespace Ltsm.ConnectorLiveness
open Library XvfbSessions DBusAdaptor SessionMoves LivenessMoves

/- Of the connector that a session has now: the pings in a row that it has left unanswered,
and whether one is out. -/
structure Watch where
  missed : Nat
  pinged : Bool
  deriving DecidableEq, Repr

def Watch.new : Watch := ⟨0,false⟩

/- `verdicts` has for every connector that was given up what it had missed. -/
structure Watched where
  service : Service
  watch : XvfbSessionPtr → Watch
  verdicts : List Nat

def Watched.start : Watched := ⟨DBusAdaptor.start,fun _ => .new,[]⟩

/- A ping goes out where none is, and one that is out has been missed. -/
def Watch.checked (w : Watch) (x : XvfbSession) : Watch :=
  if x.checkConnection then ⟨w.missed + w.pinged.toNat,false⟩ else ⟨w.missed,true⟩

/- The session of a user that goes on with a new connector. -/
def resumes (s : Service) (socket : Bool) (oldScreen : Int) (userName : String) :
    Option (XvfbSessionPtr × XvfbSession) :=
  if (findDisplaySession s.pool oldScreen).isSome then
    match findUserSessions s.pool userName with
    | (old,oldSess) :: _ => if checkDisplaySessionAlive socket oldSess.displayNum then some (old,oldSess) else none
    | [] => none
  else none

/- The session whose account is cleared: a connector connects or takes it over, or it answers. -/
def clears (s : Service) : Action → Option (XvfbSessionPtr × XvfbSession)
  | .connectorConnected display _ => findDisplaySession s.pool display
  | .connectorAlive display => findDisplaySession s.pool display
  | .startUserSession _ socket oldScreen _ userName _ _ => resumes s socket oldScreen userName
  | _ => none

def checks (s : Service) : Action → Option (XvfbSessionPtr × XvfbSession)
  | .exec index _ =>
    match s.tasks[index]? with
    | some (.checkConnected p) => (s.pool.get p).map (p,·)
    | _ => none
  | _ => none

def watchAfter (w : Watched) (a : Action) : XvfbSessionPtr → Watch :=
  match clears w.service a,checks w.service a with
  | some (p,_),_ => Function.update w.watch p .new
  | none,some (p,x) => Function.update w.watch p ((w.watch p).checked x)
  | none,none => w.watch

/- The sessions whose connector a step has given up. -/
def newVerdicts (s t : Service) : List XvfbSessionPtr :=
  (t.history.take (t.history.length - s.history.length)).filterMap declared

def watchStep (c : Config) (w : Watched) (a : Action) : Watched :=
  let service := step c w.service a
  let watch := watchAfter w a
  ⟨service,watch,w.verdicts ++ (newVerdicts w.service service).map fun p => (watch p).missed⟩

/- Connectors are given up for what they have missed themselves, and nothing else is held
against the connector of a connected session. -/
structure Correct (w : Watched) : Prop where
  dead : ∀ missed ∈ w.verdicts, 3 < missed
  own : ∀ p x, (p,x) ∈ w.service.pool.entries → x.mode = .connected →
    x.connectorFailures = (w.watch p).missed ∧ x.checkConnection = (w.watch p).pinged

/- Nothing is left of an earlier connector. -/
def Unburdened (x : XvfbSession) : Prop := x.connectorFailures = 0 ∧ x.checkConnection = false

instance decidableUnburdened (x : XvfbSession) : Decidable (Unburdened x) := by
  unfold Unburdened; infer_instance

/- A connector comes to a session that nothing is left in; one that takes over a session with
another connector does too. -/
def Fresh (w : Watched) : Action → Prop
  | .connectorConnected display _ => ∀ p x, findDisplaySession w.service.pool display = some (p,x) → Unburdened x
  | .startUserSession _ socket oldScreen _ userName _ _ =>
    ∀ p x, resumes w.service socket oldScreen userName = some (p,x) → x.mode = .connected → Unburdened x
  | _ => True

section
variable {s t : Service} {p q : XvfbSessionPtr} {x : XvfbSession} {v : Bool × Nat} {w : Watched} {c : Config}

theorem onlineIff : Online s p v ↔
    ∃ x, (p,x) ∈ s.pool.entries ∧ x.mode = .connected ∧ v = (x.checkConnection,x.connectorFailures) := by
  constructor
  · rintro ⟨held,seen⟩
    obtain ⟨x,found,view⟩ := Option.bind_eq_some_iff.mp seen
    by_cases online : x.mode = .connected
    · rw [viewOnline online] at view
      exact ⟨x,SharedPool.memEntries.mpr ⟨held,found⟩,online,(Option.some.inj view).symm⟩
    · rw [viewOffline online] at view
      cases view
  · rintro ⟨x,inside,online,rfl⟩
    obtain ⟨held,found⟩ := SharedPool.memEntries.mp inside
    exact ⟨held,by rw [found]; exact viewOnline online⟩

theorem ownIff : (∀ p x, (p,x) ∈ w.service.pool.entries → x.mode = .connected →
      x.connectorFailures = (w.watch p).missed ∧ x.checkConnection = (w.watch p).pinged) ↔
    ∀ p v, Online w.service p v → v = ((w.watch p).pinged,(w.watch p).missed) := by
  constructor
  · intro own p v online
    obtain ⟨x,inside,mode,rfl⟩ := onlineIff.mp online
    obtain ⟨failures,out⟩ := own p x inside mode
    rw [failures,out]
  · intro own p x inside mode
    have same := own p _ (onlineIff.mpr ⟨x,inside,mode,rfl⟩)
    exact ⟨congrArg Prod.snd same,congrArg Prod.fst same⟩

theorem unburdenedIff : Unburdened x ↔ (x.checkConnection,x.connectorFailures) = (false,0) := by
  rw [Unburdened,Prod.mk.injEq,and_comm]

theorem verdictsOf (added : List Event) (grown : t.history = added ++ s.history) :
    newVerdicts s t = added.filterMap declared := by
  have front : t.history.take (t.history.length - s.history.length) = added := by
    rw [grown,List.length_append,Nat.add_sub_cancel,List.take_left' rfl]
  rw [newVerdicts,front]

theorem stillVerdicts (still : Still s t) : newVerdicts s t = [] := by
  obtain ⟨added,grown,none⟩ := still.history
  rw [verdictsOf added grown,none]

/- What is seen of the sessions after one has been changed. -/
theorem onlineModify {f : XvfbSession → XvfbSession} (online : Online (s.modify p f) q v) :
    (q ≠ p → Online s q v) ∧ (q = p → some p ∈ s.pool.slots ∧ ∃ x, s.pool.get p = some x ∧ aliveView (f x) = some v) := by
  obtain ⟨held,seen⟩ := online
  obtain ⟨y,found,view⟩ := Option.bind_eq_some_iff.mp seen
  obtain ⟨old,before,⟨here,image⟩ | ⟨away,image⟩⟩ := SharedPool.modifySource found
  · subst here
    exact ⟨fun other => absurd rfl other,fun _ => ⟨held,old,before,by rw [← image]; exact view⟩⟩
  · exact ⟨fun _ => ⟨held,by rw [before,← image]; exact view⟩,fun same => absurd same.symm away⟩

theorem onlineEntry (online : Online s p v) (found : s.pool.get p = some x) :
    (p,x) ∈ s.pool.entries ∧ x.mode = .connected ∧ v = (x.checkConnection,x.connectorFailures) := by
  obtain ⟨y,inside,mode,same⟩ := onlineIff.mp online
  have equal : y = x := Option.some.inj ((SharedPool.entriesGet inside).symm.trans found)
  subst equal
  exact ⟨inside,mode,same⟩

theorem modifyTwice (f g : XvfbSession → XvfbSession) : (s.modify p f).modify p g = s.modify p (g ∘ f) := by
  unfold Service.modify SharedPool.modify
  rw [List.modify_modify_eq]

/-! The check of a connector. -/

/- A connector is given up for the session that was looked at, which is then not connected. -/
theorem unanswered (own : OwnDisplays s.pool) (found : s.pool.get p = some x) :
    (∀ q v, Online (busConnectorTerminated x.displayNum (-1) s) q v → q ≠ p ∧ Online s q v) ∧
    (newVerdicts s (busConnectorTerminated x.displayNum (-1) s) = [] ∨
      newVerdicts s (busConnectorTerminated x.displayNum (-1) s) = [p] ∧ ∃ v, Online s p v) := by
  unfold busConnectorTerminated
  cases seek : findDisplaySession s.pool x.displayNum with
  | none =>
    refine ⟨fun q v online => ⟨?_,online⟩,.inl (stillVerdicts (.refl s))⟩
    rintro rfl
    have never := List.find?_eq_none.mp seek (q,x) (onlineEntry online found).1
    simp at never
  | some entry =>
    obtain ⟨r,y⟩ := entry
    obtain ⟨inside,there,display⟩ := displaySource seek
    obtain ⟨rfl,rfl⟩ := SharedPool.uniqueSame own there found display
    have offline (q v) (mode : y.mode ≠ .connected) (online : Online s q v) : q ≠ r ∧ Online s q v := by
      refine ⟨?_,online⟩
      rintro rfl
      exact mode (onlineEntry online found).2.1
    by_cases online : y.mode = .connected
    · have reports : reported r y (-1) s = s.log (.timedOut r y.connectorId) := by simp [reported,online]
      have other : y.mode ≠ .login := by simp [online]
      simp only [reports,if_neg other,if_pos online]
      refine ⟨fun q v seen => ?_,.inr ⟨verdictsOf [.timedOut r y.connectorId] rfl,_,
        onlineIff.mpr ⟨y,inside,online,rfl⟩⟩⟩
      have changed : Online ((s.log (.timedOut r y.connectorId)).modify r detach) q v := seen
      obtain ⟨away,here⟩ := onlineModify changed
      have apart : q ≠ r := by
        intro same
        obtain ⟨_,_,_,view⟩ := here same
        cases view
      exact ⟨apart,away apart⟩
    · have quiet : reported r y (-1) s = s := by simp [reported,online]
      simp only [quiet,if_neg online]
      split
      · exact ⟨fun q v seen => offline q v online seen,.inl (stillVerdicts (stillPost _ s))⟩
      · exact ⟨fun q v seen => offline q v online seen,.inl (stillVerdicts (.refl s))⟩

def Held (watch : XvfbSessionPtr → Watch) (s : Service) : Prop :=
  ∀ p v, Online s p v → v = ((watch p).pinged,(watch p).missed)

theorem heldUpdate {watch : XvfbSessionPtr → Watch} {new : Watch} (away : ∀ q v, Online t q v → q ≠ p →
    v = ((watch q).pinged,(watch q).missed)) (here : ∀ v, Online t p v → v = (new.pinged,new.missed)) :
    Held (Function.update watch p new) t := by
  intro q v online
  by_cases same : q = p
  · subst same
    rw [Function.update_self]
    exact here v online
  · rw [Function.update_of_ne same]
    exact away q v online same

/- What the check leaves, with what the connector has missed by then. -/
theorem checkedHolds (well : Wellformed s) (found : s.pool.get p = some x) {watch : XvfbSessionPtr → Watch}
    (held : Held watch s) :
    Held (Function.update watch p ((watch p).checked x)) (checkConnected p s) ∧
    ∀ q ∈ newVerdicts s (checkConnected p s), q = p ∧ 3 < ((watch p).checked x).missed := by
  have known (v) (online : Online s p v) : x.mode = .connected ∧ x.checkConnection = (watch p).pinged ∧
      x.connectorFailures = (watch p).missed := by
    obtain ⟨_,mode,same⟩ := onlineEntry online found
    have both := same.symm.trans (held p v online)
    exact ⟨mode,congrArg Prod.fst both,congrArg Prod.snd both⟩
  -- a session that the check has changed was connected before
  have before {f : XvfbSession → XvfbSession} (keeps : ∀ x, (f x).mode = x.mode) {v}
      (online : Online (s.modify p f) p v) :
      v = ((f x).checkConnection,(f x).connectorFailures) ∧ x.checkConnection = (watch p).pinged ∧
        x.connectorFailures = (watch p).missed := by
    obtain ⟨slot,y,there,view⟩ := (onlineModify online).2 rfl
    obtain rfl : y = x := Option.some.inj (there.symm.trans found)
    have mode : y.mode = .connected := by
      by_contra off
      rw [viewOffline (by rwa [keeps])] at view
      cases view
    rw [viewOnline ((keeps y).trans mode)] at view
    have online : Online s p (y.checkConnection,y.connectorFailures) := ⟨slot,by rw [found]; exact viewOnline mode⟩
    exact ⟨(Option.some.inj view).symm,(known _ online).2⟩
  have others {f : XvfbSession → XvfbSession} (q v) (online : Online (s.modify p f) q v) (away : q ≠ p) :
      v = ((watch q).pinged,(watch q).missed) := held q v ((onlineModify online).1 away)
  unfold checkConnected
  rw [found]
  simp only
  by_cases out : x.checkConnection = true
  · rw [if_pos out]
    have missed : (watch p).checked x = ⟨(watch p).missed + (watch p).pinged.toNat,false⟩ := if_pos out
    by_cases many : 3 < x.connectorFailures + 1
    · rw [if_pos many,missed]
      have counted : (s.modify p fun x => {x with connectorFailures := x.connectorFailures + 1}).pool.get p =
          some {x with connectorFailures := x.connectorFailures + 1} := SharedPool.getModifySelf found
      have own : OwnDisplays (s.modify p fun x => {x with connectorFailures := x.connectorFailures + 1}).pool :=
        SharedPool.uniqueModify (by intro; rfl) well.own
      obtain ⟨kept,verdict⟩ := unanswered own counted
      refine ⟨heldUpdate (fun q v online away => others q v (kept q v online).2 away)
        fun v online => absurd rfl (kept p v online).1,fun q listed => ?_⟩
      obtain none | ⟨one,v,online⟩ := verdict
      · have never : q ∈ ([] : List XvfbSessionPtr) := none ▸ listed
        cases never
      · have only : q ∈ [p] := one ▸ listed
        obtain ⟨_,pinged,failures⟩ := before (by intro; rfl) online
        refine ⟨List.mem_singleton.mp only,?_⟩
        rw [← pinged,← failures,out]
        exact many
    · rw [if_neg many,missed,modifyTwice]
      refine ⟨heldUpdate others fun v online => ?_,fun q listed => ?_⟩
      · obtain ⟨rfl,pinged,failures⟩ := before (by intro; rfl) online
        simp only [← pinged,← failures,out,Function.comp_apply]
        rfl
      · have none := verdictsOf [] (s := s) (t := s.modify p
          ((fun x => {x with checkConnection := false}) ∘ fun x => {x with connectorFailures := x.connectorFailures + 1})) rfl
        rw [none] at listed
        cases listed
  · rw [if_neg out]
    have first : (watch p).checked x = ⟨(watch p).missed,true⟩ := if_neg out
    rw [first]
    refine ⟨heldUpdate others fun v online => ?_,fun q listed => ?_⟩
    · obtain ⟨rfl,_,failures⟩ := before (by intro; rfl) online
      rw [← failures]
    · have none : newVerdicts s ((s.modify p fun x => {x with checkConnection := true}).emit
          (.pingConnector x.displayNum)) = [] := verdictsOf [] rfl
      rw [none] at listed
      cases listed

/-! Steps. -/

theorem onlineOther {f : XvfbSession → XvfbSession} (keeps : ∀ x, aliveView (f x) = aliveView x) :
    Online (s.modify p f) q v ↔ Online s q v := by
  have same : ((s.modify p f).pool.get q).bind aliveView = (s.pool.get q).bind aliveView := by
    rw [Service.modifyPool,SharedPool.getModify]
    split
    · cases s.pool.get q with
      | none => rfl
      | some x => exact keeps x
    · rfl
  unfold Online
  rw [same]
  rfl

theorem resumesSource {socket : Bool} {oldScreen : Int} {userName : String}
    (found : resumes s socket oldScreen userName = some (p,x)) :
    (p,x) ∈ s.pool.entries ∧ ∃ login loginSess rest, findDisplaySession s.pool oldScreen = some (login,loginSess) ∧
      findUserSessions s.pool userName = (p,x) :: rest ∧ checkDisplaySessionAlive socket x.displayNum = true := by
  unfold resumes at found
  split at found
  · rename_i screen
    obtain ⟨⟨login,loginSess⟩,seek⟩ := Option.isSome_iff_exists.mp screen
    split at found
    · rename_i old oldSess rest sessions
      split at found
      · rename_i alive
        cases Option.some.inj found
        have listed : (p,x) ∈ findUserSessions s.pool userName := by
          rw [sessions]
          exact List.mem_cons_self
        exact ⟨(memUserSessions.mp listed).1,login,loginSess,rest,seek,sessions,alive⟩
      · cases found
    · cases found
  · cases found

/- The step of any request, or of a task that is no check. -/
theorem correctClears {a : Action} (h : Correct w) (quiet : checks w.service a = none)
    (kept : ∀ q v, Online (step c w.service a) q v → (∀ x, clears w.service a ≠ some (q,x)) → Online w.service q v)
    (cleared : ∀ q x v, clears w.service a = some (q,x) → Online (step c w.service a) q v → v = (false,0))
    (silent : newVerdicts w.service (step c w.service a) = []) : Correct (watchStep c w a) := by
  have held : Held w.watch w.service := ownIff.mp h.own
  refine ⟨?_,ownIff.mpr ?_⟩
  · have same : (watchStep c w a).verdicts = w.verdicts := by simp [watchStep,silent]
    rw [same]
    exact h.dead
  · change Held (watchAfter w a) (step c w.service a)
    unfold watchAfter
    cases clear : clears w.service a with
    | none =>
      rw [quiet]
      exact fun q v online => held q v (kept q v online fun x same => by rw [clear] at same; cases same)
    | some entry =>
      obtain ⟨p,x⟩ := entry
      refine heldUpdate (fun q v online away => held q v (kept q v online fun y same => ?_))
        fun v online => cleared p x v clear online
      rw [clear] at same
      exact away (congrArg Prod.fst (Option.some.inj same)).symm

theorem correctStill {a : Action} (h : Correct w) (quiet : checks w.service a = none)
    (still : Still w.service (step c w.service a))
    (cleared : ∀ q x v, clears w.service a = some (q,x) → Online w.service q v → v = (false,0)) :
    Correct (watchStep c w a) :=
  correctClears h quiet (fun q v online _ => still.sessions q v online)
    (fun q x v clear online => cleared q x v clear (still.sessions q v online)) (stillVerdicts still)

theorem correctExec (well : Wellformed w.service) (h : Correct w) (index : Nat) (env : Environment) :
    Correct (watchStep c w (.exec index env)) := by
  have clear (q x v) (same : clears w.service (.exec index env) = some (q,x)) (_ : Online w.service q v) :
      v = (false,0) := by
    cases same
  cases task : w.service.tasks[index]? with
  | none =>
    refine correctStill h (by simp [checks,task]) ?_ clear
    have idle : step c w.service (.exec index env) = w.service := by simp [step,exec,task]
    rw [idle]
    exact .refl _
  | some task' =>
    have runs : step c w.service (.exec index env) =
        runTask c env {w.service with tasks := w.service.tasks.eraseIdx index} task' := by simp [step,exec,task]
    by_cases check : ∃ p, task' = .checkConnected p
    · obtain ⟨p,rfl⟩ := check
      cases found : w.service.pool.get p with
      | none =>
        refine correctStill h (by simp [checks,task,found]) ?_ clear
        have idle : step c w.service (.exec index env) = {w.service with tasks := w.service.tasks.eraseIdx index} := by
          rw [runs]
          simp [runTask,checkConnected,found]
        rw [idle]
        exact stillTasks _ _
      | some x =>
        have looks : checks w.service (.exec index env) = some (p,x) := by simp [checks,task,found]
        have after : watchAfter w (.exec index env) = Function.update w.watch p ((w.watch p).checked x) := by
          simp [watchAfter,clears,looks]
        obtain ⟨holds,verdicts⟩ := checkedHolds (well.unmoved (unmovedTasks (w.service.tasks.eraseIdx index) w.service))
          found (ownIff.mp h.own)
        refine ⟨fun missed listed => ?_,ownIff.mpr ?_⟩
        · obtain old | new := List.mem_append.mp listed
          · exact h.dead missed old
          · obtain ⟨q,given,rfl⟩ := List.mem_map.mp new
            rw [runs] at given
            obtain ⟨rfl,many⟩ := verdicts q given
            rw [after,Function.update_self]
            exact many
        · change Held (watchAfter w (.exec index env)) (step c w.service (.exec index env))
          rw [after,runs]
          exact holds
    · have other (p) : task' ≠ .checkConnected p := fun same => check ⟨p,same⟩
      refine correctStill h ?_ ?_ clear
      · simp only [checks,task]
        cases task' with
        | checkConnected p => exact absurd rfl (other p)
        | _ => rfl
      · rw [runs]
        exact (stillTasks _ _).trans (runTaskStill task' other _)

theorem connectedOnline (display connectorId : Int) (found : findDisplaySession s.pool display = some (p,x)) :
    (∀ q v, Online (busConnectorConnected display connectorId s) q v → q ≠ p → Online s q v) ∧
    (∀ v, Online (busConnectorConnected display connectorId s) p v ↔ v = (x.checkConnection,x.connectorFailures)) ∧
    newVerdicts s (busConnectorConnected display connectorId s) = [] := by
  obtain ⟨inside,there,_⟩ := displaySource found
  unfold busConnectorConnected
  rw [found]
  refine ⟨fun q v online away => ?_,fun v => ?_,verdictsOf [.connected p connectorId] rfl⟩
  · exact (onlineModify (f := fun x => {x with connectorId,mode := .connected}) online).1 away
  · have now : (s.modify p fun x => {x with connectorId,mode := .connected}).pool.get p =
        some {x with connectorId,mode := .connected} := SharedPool.getModifySelf there
    have slot : some p ∈ s.pool.slots := (SharedPool.memEntries.mp inside).1
    constructor
    · intro online
      have seen : Online (s.modify p fun x => {x with connectorId,mode := .connected}) p v := online
      exact (onlineEntry seen now).2.2
    · rintro rfl
      have seen : Online (s.modify p fun x => {x with connectorId,mode := .connected}) p
          (x.checkConnection,x.connectorFailures) := ⟨slot,by rw [now]; exact viewOnline rfl⟩
      exact seen

theorem correctConnected (h : Correct w) (display : Int) (connectorId : Pid)
    (fresh : Fresh w (.connectorConnected display connectorId)) :
    Correct (watchStep c w (.connectorConnected display connectorId)) := by
  cases found : findDisplaySession w.service.pool display with
  | none =>
    have idle : step c w.service (.connectorConnected display connectorId) = w.service := by
      simp [step,busConnectorConnected,found]
    refine correctStill h rfl (by rw [idle]; exact .refl _) fun q x v same _ => ?_
    rw [clears,found] at same
    cases same
  | some entry =>
    obtain ⟨p,x⟩ := entry
    obtain ⟨away,here,silent⟩ := connectedOnline display connectorId.id found
    refine correctClears h rfl (fun q v online other => ?_) (fun q y v same online => ?_) silent
    · refine away q v online ?_
      rintro rfl
      exact other x found
    · rw [clears,found] at same
      cases same
      exact ((here v).mp online).trans (unburdenedIff.mp (fresh p x found))

theorem correctAlive (h : Correct w) (display : Int) : Correct (watchStep c w (.connectorAlive display)) := by
  cases found : findDisplaySession w.service.pool display with
  | none =>
    have idle : step c w.service (.connectorAlive display) = w.service := by
      simp [step,busConnectorAlive,onSession,found]
    refine correctStill h rfl (by rw [idle]; exact .refl _) fun q x v same _ => ?_
    rw [clears,found] at same
    cases same
  | some entry =>
    obtain ⟨p,x⟩ := entry
    have answers : step c w.service (.connectorAlive display) =
        w.service.modify p fun x => {x with checkConnection := false,connectorFailures := 0} := by
      simp [step,busConnectorAlive,onSession,found]
    refine correctClears h rfl (fun q v online other => ?_) (fun q y v same online => ?_) ?_
    · rw [answers] at online
      refine (onlineModify online).1 ?_
      rintro rfl
      exact other x found
    · rw [clears,found] at same
      cases same
      rw [answers] at online
      obtain ⟨_,z,_,view⟩ := (onlineModify online).2 rfl
      by_cases mode : z.mode = .connected
      · have seen := (viewOnline (x := {z with checkConnection := false,connectorFailures := 0}) mode).symm.trans view
        exact (Option.some.inj seen).symm
      · have seen := (viewOffline (x := {z with checkConnection := false,connectorFailures := 0}) mode).symm.trans view
        cases seen
    · rw [answers]
      exact verdictsOf [] rfl

theorem stepCorrect (well : Wellformed w.service) (h : Correct w) (a : Action) (fresh : Fresh w a) :
    Correct (watchStep c w a) := by
  have still (other : stillAction a = true) (quiet : checks w.service a = none) (none : clears w.service a = none) :
      Correct (watchStep c w a) :=
    correctStill h quiet (stepStill a other w.service) fun q x v same _ => by rw [none] at same; cases same
  cases a with
  | exec index env => exact correctExec well h index env
  | connectorConnected display connectorId => exact correctConnected h display connectorId fresh
  | connectorAlive display => exact correctAlive h display
  | startUserSession launch socket oldScreen connectorId userName remoteAddr connType =>
    refine correctStill h rfl (stepStill _ rfl w.service) fun q x v same online => ?_
    obtain ⟨inside,_⟩ := resumesSource same
    obtain ⟨_,mode,view⟩ := onlineEntry online (SharedPool.entriesGet inside)
    exact view.trans (unburdenedIff.mp (fresh q x same mode))
  | _ => exact still rfl rfl rfl

/- A session that is taken over stays as it was seen. -/
theorem resumedOnline {launch : Launch} {socket : Bool} {oldScreen connectorId : Int}
    {userName remoteAddr connType : String} (found : resumes s socket oldScreen userName = some (p,x)) :
    Online (busStartUserSession c launch socket oldScreen connectorId userName remoteAddr connType s).2 q v ↔
      Online s q v := by
  obtain ⟨_,login,loginSess,rest,seek,sessions,alive⟩ := resumesSource found
  have resumed : (busStartUserSession c launch socket oldScreen connectorId userName remoteAddr connType s).2 =
      (((s.modify p (continueScreen loginSess connectorId remoteAddr connType)).modify login moveEncryption).emit
        (.sessionReconnect remoteAddr connType)).log (.resumed login p userName connectorId) := by
    unfold busStartUserSession
    rw [seek]
    simp only [sessions,if_pos alive]
  rw [resumed]
  exact (onlineOther (f := moveEncryption) (by intro; rfl)).trans (onlineOther (by intro; rfl))

/- A connector to which something is left over has it held against it. -/
theorem stepFresh (a : Action) (next : Correct (watchStep c w a)) : Fresh w a := by
  have held : Held (watchAfter w a) (step c w.service a) := ownIff.mp next.own
  cases a with
  | connectorConnected display connectorId =>
    intro p x found
    have after : watchAfter w (.connectorConnected display connectorId) = Function.update w.watch p .new := by
      simp [watchAfter,clears,found]
    have seen := held p _ (((connectedOnline display connectorId.id found).2.1 _).mpr rfl)
    rw [after,Function.update_self] at seen
    exact unburdenedIff.mpr seen
  | startUserSession launch socket oldScreen connectorId userName remoteAddr connType =>
    intro p x found mode
    have after : watchAfter w (.startUserSession launch socket oldScreen connectorId userName remoteAddr connType) =
        Function.update w.watch p .new := by
      simp [watchAfter,clears,found]
    obtain ⟨inside,_⟩ := resumesSource found
    have seen := held p _ ((resumedOnline found).mpr (onlineIff.mpr ⟨x,inside,mode,rfl⟩))
    rw [after,Function.update_self] at seen
    exact unburdenedIff.mpr seen
  | _ => trivial

end

theorem startCorrect : Correct Watched.start := by
  refine ⟨fun missed listed => absurd listed List.not_mem_nil,fun p x inside => ?_⟩
  have found := SharedPool.entriesGet inside
  simp [Watched.start,DBusAdaptor.start] at found

/- Connectors are given up for what they have missed themselves, all the way, if and only if
no connector comes to a session in which something of an earlier one is left. -/
theorem livenessIff (c : Config) (actions : List Action) :
    Always (watchStep c) Correct Watched.start actions ↔ Meets (watchStep c) Fresh Watched.start actions :=
  alwaysMeetsIff (I := fun w => Wellformed w.service ∧ Correct w)
    (fun w a both fresh => ⟨stepWellformed w.service a both.1,stepCorrect both.1 both.2 a fresh⟩)
    (fun _ both => both.2) (fun _ a _ next => stepFresh a next) ⟨startWellformed,startCorrect⟩ actions

/-! The connector 501 of alice leaves three pings pingMissed and goes; 502, which comes for
it, is given up for one. -/

def pingMissed : List Action := [.checkTimer,.exec 0 (hostAnswer true),.checkTimer,.exec 0 (hostAnswer true)]

def reconnectRun : List Action :=
  [.startLoginSession hostLaunch (hostPid 501) "10.0.0.1" "ltsm",
    .startUserSession hostLaunch true 101 (hostPid 501) "alice" "10.0.0.1" "ltsm",
    .connectorConnected 102 (hostPid 501)] ++ pingMissed ++ pingMissed ++ pingMissed ++
  [.connectorTerminated 102 (hostPid 501),
    .startLoginSession hostLaunch (hostPid 502) "10.0.0.2" "ltsm",
    .startUserSession hostLaunch true 103 (hostPid 502) "alice" "10.0.0.2" "ltsm",
    .connectorConnected 102 (hostPid 502)] ++ pingMissed

def reconnectState : Watched := run (watchStep (hostConfig "authtake")) Watched.start reconnectRun

theorem blamedForAnother : reconnectState.verdicts = [1] ∧
    ¬∀ actions, Always (watchStep (hostConfig "authtake")) Correct Watched.start actions := by
  have verdict : reconnectState.verdicts = [1] := by decide
  refine ⟨verdict,fun right => ?_⟩
  have last : Correct reconnectState := right reconnectRun _ (List.prefix_refl _)
  have fair := last.dead 1 (verdict ▸ List.mem_singleton.mpr rfl)
  omega

end Ltsm.ConnectorLiveness
