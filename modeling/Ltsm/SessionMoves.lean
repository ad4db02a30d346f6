import Ltsm.DBusAdaptor

/-! What the service does to the attachment of its sessions. Most steps leave it
alone; the others shut a session down, take it out of the pool, find its connector
dead, or are one of the requests of a connector. -/
namespace Ltsm.SessionMoves
open Library XvfbSessions DBusAdaptor

/- The part of a session that says whose it is and who is attached. -/
structure View where
  user : String
  displayNum : Int
  mode : SessionMode
  connectorId : Int
  policy : SessionPolicy
  deriving DecidableEq, Repr

def view (x : XvfbSession) : View := ⟨x.user,x.displayNum,x.mode,x.connectorId,x.policy⟩

/- The events of a history that attach or detach a connector. -/
def attaches : Event → Bool
  | .loginScreen .. | .created .. | .resumed .. | .connected .. | .terminated .. | .timedOut .. => true
  | _ => false

structure Unmoved (s t : Service) : Prop where
  slots : t.pool.slots = s.pool.slots
  sessions : SharedPool.Alike view s.pool t.pool
  display : s.freeDisplay ≤ t.freeDisplay
  history : t.history.filter attaches = s.history.filter attaches

section
variable {s t u : Service} {p : XvfbSessionPtr} {x : XvfbSession} {c : Config} {env : Environment}

theorem Unmoved.refl (s : Service) : Unmoved s s := ⟨rfl,fun _ => rfl,le_rfl,rfl⟩

theorem Unmoved.trans (first : Unmoved s t) (second : Unmoved t u) : Unmoved s u :=
  ⟨second.slots.trans first.slots,fun p => (second.sessions p).trans (first.sessions p),
    first.display.trans second.display,second.history.trans first.history⟩

theorem Unmoved.source (same : Unmoved s t) (found : t.pool.get p = some x) :
    ∃ old, s.pool.get p = some old ∧ view x = view old := same.sessions.source found

theorem Unmoved.target (same : Unmoved s t) (found : s.pool.get p = some x) :
    ∃ new, t.pool.get p = some new ∧ view new = view x := same.sessions.target found

theorem Unmoved.entry (same : Unmoved s t) (inside : (p,x) ∈ t.pool.entries) :
    ∃ old, (p,old) ∈ s.pool.entries ∧ view x = view old := by
  obtain ⟨held,found⟩ := SharedPool.memEntries.mp inside
  obtain ⟨old,before,equal⟩ := same.source found
  rw [same.slots] at held
  exact ⟨old,SharedPool.memEntries.mpr ⟨held,before⟩,equal⟩

theorem viewUser {x y : XvfbSession} (same : view x = view y) : x.user = y.user :=
  congrArg View.user same
theorem viewDisplay {x y : XvfbSession} (same : view x = view y) : x.displayNum = y.displayNum :=
  congrArg View.displayNum same
theorem viewMode {x y : XvfbSession} (same : view x = view y) : x.mode = y.mode :=
  congrArg View.mode same
theorem viewConnector {x y : XvfbSession} (same : view x = view y) : x.connectorId = y.connectorId :=
  congrArg View.connectorId same
theorem viewPolicy {x y : XvfbSession} (same : view x = view y) : x.policy = y.policy :=
  congrArg View.policy same

theorem unmovedPost (task : Task) (s : Service) : Unmoved s (s.post task) :=
  ⟨rfl,fun _ => rfl,le_rfl,rfl⟩

theorem unmovedEmit (signal : Signal) (s : Service) : Unmoved s (s.emit signal) :=
  ⟨rfl,fun _ => rfl,le_rfl,rfl⟩

theorem unmovedLog {e : Event} (quiet : attaches e = false) (s : Service) : Unmoved s (s.log e) := by
  refine ⟨rfl,fun _ => rfl,le_rfl,?_⟩
  rw [Service.logHistory,List.filter_cons_of_neg (by simp [quiet])]

theorem unmovedModify {f : XvfbSession → XvfbSession} (keeps : ∀ x, view (f x) = view x)
    (s : Service) : Unmoved s (s.modify p f) := ⟨rfl,SharedPool.alikeModify keeps,le_rfl,rfl⟩

theorem unmovedTasks (tasks : List Task) (s : Service) : Unmoved s {s with tasks} :=
  ⟨rfl,fun _ => rfl,le_rfl,rfl⟩

theorem unmovedFold {α : Type*} {f : Service → α → Service} (each : ∀ s a, Unmoved s (f s a))
    (l : List α) (s : Service) : Unmoved s (l.foldl f s) := by
  induction l generalizing s with
  | nil => exact .refl s
  | cons a rest ih => exact (each s a).trans (ih _)

/-! Two states that differ in nothing but this stay so under one and the same move. -/

theorem Unmoved.modify {f : XvfbSession → XvfbSession}
    (respects : ∀ x y, view x = view y → view (f x) = view (f y)) (same : Unmoved s t) :
    Unmoved (s.modify p f) (t.modify p f) := by
  refine ⟨same.slots,?_,same.display,same.history⟩
  intro q
  have here := same.sessions q
  rw [Service.modifyPool,Service.modifyPool,SharedPool.getModify,SharedPool.getModify]
  split
  · cases before : s.pool.get q with
    | none =>
      rw [before,Option.map_none,Option.map_eq_none_iff] at here
      rw [here]
    | some x =>
      obtain ⟨y,found,equal⟩ := same.target before
      rw [found]
      exact congrArg some (respects y x equal)
  · exact here

theorem Unmoved.log (event : Event) (same : Unmoved s t) : Unmoved (s.log event) (t.log event) := by
  refine ⟨same.slots,same.sessions,same.display,?_⟩
  rw [Service.logHistory,Service.logHistory,List.filter_cons,List.filter_cons,same.history]

theorem Unmoved.remove (display : Int) (same : Unmoved s t) :
    Unmoved {s with pool := removeDisplaySession display s.pool}
      {t with pool := removeDisplaySession display t.pool} := by
  refine ⟨?_,same.sessions,same.display,same.history⟩
  have test : (fun slot : Option Nat => (slot.bind t.pool.get).any fun x => x.displayNum = display) =
      fun slot => (slot.bind s.pool.get).any fun x => x.displayNum = display := by
    funext slot
    cases slot with
    | none => rfl
    | some p =>
      have here := congrArg (Option.map View.displayNum) (same.sessions p)
      rw [Option.map_map,Option.map_map] at here
      have same : (t.pool.get p).map XvfbSession.displayNum = (s.pool.get p).map XvfbSession.displayNum := here
      have folded (o : Option XvfbSession) : (o.any fun x => x.displayNum = display) =
          (o.map XvfbSession.displayNum).any (· = display) := by cases o <;> rfl
      rw [Option.bind_some,Option.bind_some,folded,folded,same]
  unfold removeDisplaySession SharedPool.release
  rw [test,same.slots]

theorem shutDownRespects (x y : XvfbSession) (same : view x = view y) :
    view (shutDown x) = view (shutDown y) := by
  have mode := viewMode same
  have connector := viewConnector same
  unfold shutDown
  rw [mode,connector]
  split <;> simp_all [view]

theorem detachRespects (x y : XvfbSession) (same : view x = view y) :
    view (detach x) = view (detach y) := by
  simp_all [view,detach]

/-! Requests and tasks that only look at sessions. -/

theorem onSessionUnmoved {f : XvfbSessionPtr → Service → Service} (display : Int)
    (each : ∀ p, Unmoved s (f p s)) : Unmoved s (onSession display f s) := by
  obtain same | ⟨p,_,_,same⟩ := sessionSource display f s
  · rw [same]
    exact .refl s
  · rw [same]
    exact each p

theorem shutdownDisplayUnmoved (display : Int) (s : Service) : Unmoved s (busShutdownDisplay display s) :=
  onSessionUnmoved display fun _ => unmovedPost _ s

theorem loginSuccessUnmoved (login : String) (s : Service) :
    Unmoved s (loginSuccess env p x login s) :=
  (unmovedEmit _ s).trans (unmovedLog rfl _)

theorem authSuccessUnmoved (login : String) (s : Service) :
    Unmoved s (authSuccess c env p x login s) := by
  have reset : Unmoved s (if 0 < c.loginFailuresConf then s.modify p resetFailures else s) := by
    split
    · exact unmovedModify (by intro; rfl) s
    · exact .refl s
  have logged := reset.trans (unmovedLog (e := .passed p login) rfl _)
  unfold authSuccess
  dsimp only
  split
  · exact logged.trans (loginSuccessUnmoved login _)
  · split
    · exact logged.trans (unmovedEmit _ _)
    · exact logged.trans ((unmovedEmit _ _).trans (unmovedPost _ _))
    · exact logged.trans (loginSuccessUnmoved login _)

theorem pamAuthenticateUnmoved (login password : String) (token : Bool) (s : Service) :
    Unmoved s (pamAuthenticate c env p x login password token s) := by
  unfold pamAuthenticate
  split
  · exact .refl s
  · split
    · exact unmovedEmit _ s
    · split
      · exact authSuccessUnmoved login s
      · exact unmovedPost _ s

theorem pamVerdictUnmoved (login password : String) (s : Service) :
    Unmoved s (pamVerdict c env p x login password s) := by
  unfold pamVerdict
  split
  · exact (unmovedModify (by intro; rfl) s).trans ((unmovedLog rfl _).trans (unmovedPost _ _))
  · have counted := (unmovedEmit (.loginFailure x.displayNum env.pamError) s).trans
      ((unmovedModify (p := p) (f := countFailure) (fun _ => rfl) _).trans
        (unmovedLog (e := .failed p login) rfl _))
    dsimp only
    split
    · exact counted.trans ((unmovedEmit _ _).trans (unmovedPost _ _))
    · exact counted

theorem pamAccountUnmoved (login : String) (s : Service) :
    Unmoved s (pamAccount c env p x login s) := by
  unfold pamAccount
  split
  · exact authSuccessUnmoved login s
  · exact unmovedFold (fun s _ => shutdownDisplayUnmoved _ s) _ s

/-! The steps that are not requests of a connector. -/

inductive Background (s t : Service) : Prop where
  | unmoved (same : Unmoved s t)
  | shutDown (p : XvfbSessionPtr) (x : XvfbSession) (found : s.pool.get p = some x)
      (up : x.mode ≠ .shutdown) (same : Unmoved (s.modify p shutDown) t)
  | removed (display : Int)
      (same : Unmoved {s with pool := removeDisplaySession display s.pool} t)
  | timedOut (p : XvfbSessionPtr) (x : XvfbSession) (inside : (p,x) ∈ s.pool.entries)
      (online : x.mode = .connected)
      (same : Unmoved ((s.log (.timedOut p x.connectorId)).modify p detach) t)

theorem displayShutdownBackground (p : XvfbSessionPtr) (emitSignal : Bool) (s : Service) :
    Background s (displayShutdown p emitSignal s) := by
  unfold displayShutdown
  split
  · exact .unmoved (.refl s)
  rename_i x found
  split
  · exact .unmoved (.refl s)
  rename_i up
  refine .shutDown p x found up ?_
  -- the log of the kill does not meet the change of the session
  have killed : Unmoved (s.modify p shutDown) ((if x.connectorId ≠ 0 ∧ x.mode ≠ .login then
      s.log (.killed x.connectorId) else s).modify p shutDown) := by
    split
    · exact unmovedLog rfl (s.modify p shutDown)
    · exact .refl _
  dsimp only
  split
  · exact killed.trans ((unmovedEmit _ _).trans (unmovedPost _ _))
  · exact killed.trans (unmovedPost _ _)

theorem displayRemoveBackground (p : XvfbSessionPtr) (s : Service) :
    Background s (displayRemove p s) := by
  unfold displayRemove
  split
  · exact .unmoved (.refl s)
  · exact .removed _ (unmovedEmit _ _)

/- A session without an answer is detached as if its connector had reported. -/
theorem unansweredBackground (display : Int) (s : Service) :
    Background s (busConnectorTerminated display (-1) s) := by
  unfold busConnectorTerminated reported
  split
  · exact .unmoved (.refl s)
  rename_i p x found
  have inside := (displaySource found).1
  simp only [ne_eq,not_true_eq_false,if_false]
  cases mode : x.mode with
  | login => exact .unmoved (unmovedPost _ s)
  | connected => exact .timedOut p x inside mode (unmovedEmit _ _)
  | _ => exact .unmoved (.refl s)

theorem Background.after (same : Unmoved s t) (next : Background t u) : Background s u := by
  cases next with
  | unmoved rest => exact .unmoved (same.trans rest)
  | shutDown p x found up rest =>
    obtain ⟨old,before,equal⟩ := same.source found
    rw [viewMode equal] at up
    exact .shutDown p old before up ((same.modify shutDownRespects).trans rest)
  | removed display rest => exact .removed display ((same.remove display).trans rest)
  | timedOut p x inside online rest =>
    obtain ⟨old,before,equal⟩ := same.entry inside
    rw [viewMode equal] at online
    rw [viewConnector equal] at rest
    exact .timedOut p old before online (((same.log _).modify detachRespects).trans rest)

theorem checkConnectedBackground (p : XvfbSessionPtr) (s : Service) :
    Background s (checkConnected p s) := by
  unfold checkConnected
  split
  · exact .unmoved (.refl s)
  split
  · have counted : Unmoved s (s.modify p fun x => {x with connectorFailures := x.connectorFailures + 1}) :=
      unmovedModify (by intro; rfl) s
    dsimp only
    split
    · exact (unansweredBackground _ _).after counted
    · exact .unmoved (counted.trans (unmovedModify (by intro; rfl) _))
  · exact .unmoved ((unmovedModify (by intro; rfl) s).trans (unmovedEmit _ _))

theorem runTaskBackground (task : Task) (s : Service) : Background s (runTask c env s task) := by
  cases task with
  | displayShutdown p emitSignal => exact displayShutdownBackground p emitSignal s
  | displayRemove p => exact displayRemoveBackground p s
  | checkConnected p => exact checkConnectedBackground p s
  | shutdownConnector display => exact .unmoved (unmovedEmit _ s)
  | pamAuthenticate p login password token =>
    simp only [runTask]
    split
    · exact .unmoved (.refl s)
    · exact .unmoved (pamAuthenticateUnmoved login password token s)
  | pamVerdict p login password =>
    simp only [runTask]
    split
    · exact .unmoved (.refl s)
    · exact .unmoved (pamVerdictUnmoved login password s)
  | pamAccount p login =>
    simp only [runTask]
    split
    · exact .unmoved (.refl s)
    · exact .unmoved (pamAccountUnmoved login s)
  | pamWait p login =>
    simp only [runTask]
    split
    · exact .unmoved (.refl s)
    · exact .unmoved (loginSuccessUnmoved login s)

theorem execBackground (index : Nat) (env : Environment) (s : Service) :
    Background s (exec c index env s) := by
  unfold exec
  split
  · exact .unmoved (.refl s)
  · exact (runTaskBackground _ _).after (unmovedTasks _ s)

/- The requests that no connector makes for itself. -/
def background : Action → Bool
  | .startLoginSession .. | .startUserSession .. | .connectorConnected .. | .connectorTerminated ..
  | .setSessionPolicy .. => false
  | _ => true

theorem stepBackground (a : Action) (quiet : background a = true) (s : Service) :
    Background s (step c s a) := by
  cases a with
  | exec index env => exact execBackground index env s
  | connectorAlive display => exact .unmoved (onSessionUnmoved display fun _ => unmovedModify (by intro; rfl) s)
  | setAuthenticateToken display login => exact .unmoved (onSessionUnmoved display fun _ => unmovedPost _ s)
  | setAuthenticateLoginPass display login password =>
    exact .unmoved (onSessionUnmoved display fun _ => unmovedPost _ s)
  | shutdownDisplay display => exact .unmoved (shutdownDisplayUnmoved display s)
  | shutdownConnector display => exact .unmoved (unmovedPost _ s)
  | setEncryptionInfo display info => exact .unmoved (onSessionUnmoved display fun _ => unmovedModify (by intro; rfl) s)
  | setLoginsDisable action => exact .unmoved ⟨rfl,fun _ => rfl,le_rfl,rfl⟩
  | checkTimer => exact .unmoved (unmovedFold (fun s _ => unmovedPost _ s) _ s)
  | limitTimer limit display =>
    change Background s (timerSessionsTimeLimitAction limit display s)
    unfold timerSessionsTimeLimitAction
    split
    · exact .unmoved (.refl s)
    · cases limit with
      | life => exact .unmoved (unmovedPost _ s)
      | online =>
        dsimp only
        split
        · exact .unmoved (unmovedEmit _ s)
        · exact .unmoved (.refl s)
      | offline =>
        dsimp only
        split
        · exact .unmoved (unmovedPost _ s)
        · exact .unmoved (.refl s)
  | sessionEnded pid =>
    change Background s (timerSessionsEndedAction pid s)
    unfold timerSessionsEndedAction
    split
    · exact .unmoved (.refl s)
    · exact .unmoved ((unmovedModify (by intro; rfl) s).trans (unmovedPost _ _))
  | startLoginSession | startUserSession | connectorConnected | connectorTerminated
  | setSessionPolicy => contradiction

/-! The requests of a connector. -/

theorem launchModify {f : XvfbSession → XvfbSession} :
    (s.launch x).modify s.pool.heap.length f = s.launch (f x) := by
  unfold Service.launch Service.modify
  rw [SharedPool.modifyInsert]

/- A session as it enters the pool, before the request that asked for it fills it in. -/
structure Launched (username pass : String) (display : Int) (x : XvfbSession) : Prop where
  user : x.user = username
  password : x.password = pass
  displayNum : x.displayNum = display
  mode : x.mode = if username = ltsmUserConn then .login else .started
  connectorId : x.connectorId = 0
  loginFailures : x.loginFailures = 0
  policy : x.policy = .authTake

theorem newSessionSource (launch : Launch) (username pass : String) (s : Service) :
    (∃ display, s.freeDisplay ≤ display ∧
      runNewDisplaySession c launch username pass s = (none,{s with freeDisplay := display})) ∨
    ∃ x, Launched username pass s.freeDisplay x ∧
      runNewDisplaySession c launch username pass s =
        (some s.pool.heap.length,s.launch x) := by
  unfold runNewDisplaySession
  split
  · exact .inl ⟨s.freeDisplay,le_rfl,rfl⟩
  rename_i userInfo found
  have user : userInfo.user = username := by simpa using List.find?_some found
  split
  · exact .inl ⟨s.freeDisplay,le_rfl,rfl⟩
  split
  · exact .inl ⟨s.freeDisplay,le_rfl,rfl⟩
  split
  · exact .inl ⟨s.freeDisplay,le_rfl,rfl⟩
  have later : s.freeDisplay ≤ s.freeDisplay + 1 := by omega
  dsimp only
  split
  · split
    · exact .inl ⟨_,later,rfl⟩
    · split
      · exact .inr ⟨_,⟨user,rfl,rfl,rfl,rfl,rfl,rfl⟩,rfl⟩
      · exact .inl ⟨_,later,rfl⟩
  · exact .inl ⟨_,later,rfl⟩

/- A session that a login screen or a user starts with, or no session at all. -/
theorem loginSessionSource (launch : Launch) (connectorId : Int) (remoteAddr connType : String)
    (s : Service) :
    (∃ display, s.freeDisplay ≤ display ∧
      busStartLoginSession c launch connectorId remoteAddr connType s =
        (-1,{s with freeDisplay := display})) ∨
    ∃ x, Launched ltsmUserConn "" s.freeDisplay x ∧
      busStartLoginSession c launch connectorId remoteAddr connType s =
        (s.freeDisplay,(s.launch {x with remoteAddr,conntype := connType,connectorId}).log
          (.loginScreen s.pool.heap.length)) := by
  unfold busStartLoginSession
  obtain ⟨display,later,same⟩ | ⟨x,launched,same⟩ := newSessionSource (c := c) launch ltsmUserConn "" s
  · exact .inl ⟨display,later,by rw [same]⟩
  · refine .inr ⟨x,launched,?_⟩
    rw [same]
    dsimp only
    rw [launchModify]

/- The connector of a login screen either resumes the last session of the user in the
pool, or is given a new one, or nothing. -/
theorem userSessionSource (launch : Launch) (socket : Bool) (oldScreen connectorId : Int)
    (userName remoteAddr connType : String) (s : Service) :
    (∃ display, s.freeDisplay ≤ display ∧
      busStartUserSession c launch socket oldScreen connectorId userName remoteAddr connType s =
        (-1,{s with freeDisplay := display})) ∨
    ∃ login loginSess, findDisplaySession s.pool oldScreen = some (login,loginSess) ∧
      ((∃ old oldSess rest, findUserSessions s.pool userName = (old,oldSess) :: rest ∧
          checkDisplaySessionAlive socket oldSess.displayNum = true ∧
          busStartUserSession c launch socket oldScreen connectorId userName remoteAddr connType s =
            (oldSess.displayNum,(((s.modify old (continueScreen loginSess connectorId remoteAddr connType)).modify
              login moveEncryption).emit (.sessionReconnect remoteAddr connType)).log
                (.resumed login old userName connectorId))) ∨
        findUserSessions s.pool userName = [] ∧
          ∃ x, Launched userName loginSess.password s.freeDisplay x ∧
            busStartUserSession c launch socket oldScreen connectorId userName remoteAddr connType s =
              (s.freeDisplay,((s.launch (updateScreen c loginSess connectorId remoteAddr connType x)).modify
                login moveEncryption).log
                  (.created login s.pool.heap.length userName loginSess.password connectorId))) := by
  unfold busStartUserSession
  cases found : findDisplaySession s.pool oldScreen with
  | none => exact .inl ⟨s.freeDisplay,le_rfl,rfl⟩
  | some entry =>
    obtain ⟨login,loginSess⟩ := entry
    dsimp only
    cases sessions : findUserSessions s.pool userName with
    | cons front rest =>
      obtain ⟨old,oldSess⟩ := front
      dsimp only
      split
      · rename_i alive
        exact .inr ⟨login,loginSess,rfl,.inl ⟨old,oldSess,rest,rfl,alive,rfl⟩⟩
      · exact .inl ⟨s.freeDisplay,le_rfl,rfl⟩
    | nil =>
      dsimp only
      obtain ⟨display,later,same⟩ | ⟨x,launched,same⟩ :=
        newSessionSource (c := c) launch userName loginSess.password s
      · exact .inl ⟨display,later,by rw [same]⟩
      · refine .inr ⟨login,loginSess,rfl,.inr ⟨rfl,x,launched,?_⟩⟩
        rw [same]
        dsimp only
        rw [launchModify]

/-! Displays are never handed out twice. -/

structure Wellformed (s : Service) : Prop where
  own : OwnDisplays s.pool
  fresh : ∀ p x, s.pool.get p = some x → x.displayNum < s.freeDisplay

theorem startWellformed : Wellformed start := by
  refine ⟨?_,?_⟩
  · intro p q x y found
    simp [start] at found
  · intro p x found
    simp [start] at found

theorem Wellformed.unmoved (same : Unmoved s t) (h : Wellformed s) : Wellformed t := by
  refine ⟨?_,?_⟩
  · intro p q x y atP atQ equal
    obtain ⟨oldX,beforeP,viewX⟩ := same.source atP
    obtain ⟨oldY,beforeQ,viewY⟩ := same.source atQ
    rw [viewDisplay viewX,viewDisplay viewY] at equal
    exact h.own p q oldX oldY beforeP beforeQ equal
  · intro p x found
    obtain ⟨old,before,equal⟩ := same.source found
    rw [viewDisplay equal]
    exact (h.fresh p old before).trans_le same.display

theorem Wellformed.modify {f : XvfbSession → XvfbSession} (keeps : ∀ x, (f x).displayNum = x.displayNum)
    (h : Wellformed s) : Wellformed (s.modify p f) := by
  refine ⟨SharedPool.uniqueModify keeps h.own,?_⟩
  intro q x found
  obtain ⟨old,before,⟨_,image⟩ | ⟨_,image⟩⟩ := SharedPool.modifySource found
  · rw [image,keeps]
    exact h.fresh q old before
  · rw [image]
    exact h.fresh q old before

theorem Wellformed.launch (display : x.displayNum = s.freeDisplay) (h : Wellformed s) :
    Wellformed (s.launch x) := by
  refine ⟨SharedPool.uniqueInsert ?_ h.own,?_⟩
  · intro q y found
    have below := h.fresh q y found
    omega
  · intro q y found
    change y.displayNum < s.freeDisplay + 1
    rcases SharedPool.insertSource found with ⟨_,rfl⟩ | old
    · omega
    · have below := h.fresh q y old
      omega

theorem Wellformed.background (moved : Background s t) (h : Wellformed s) : Wellformed t := by
  have shut := shutDownKeeps XvfbSession.displayNum fun _ _ _ => rfl
  cases moved with
  | unmoved same => exact h.unmoved same
  | shutDown p x found up same => exact (h.modify shut).unmoved same
  | removed display same => exact Wellformed.unmoved same ⟨h.own,h.fresh⟩
  | timedOut p x inside online same =>
    have logged : Wellformed (s.log (.timedOut p x.connectorId)) := ⟨h.own,h.fresh⟩
    exact (logged.modify (f := detach) fun _ => rfl).unmoved same

theorem Wellformed.terminated (display connectorId : Int) (h : Wellformed s) :
    Wellformed (busConnectorTerminated display connectorId s) := by
  unfold busConnectorTerminated
  split
  · exact h
  rename_i p x found
  have logged : Wellformed (reported p x connectorId s) := by
    unfold reported
    split
    · exact ⟨h.own,h.fresh⟩
    · split
      · exact ⟨h.own,h.fresh⟩
      · exact h
  dsimp only
  split
  · exact logged.unmoved (unmovedPost _ _)
  · split
    · exact (logged.modify (f := detach) fun _ => rfl).unmoved (unmovedEmit _ _)
    · exact logged

theorem Wellformed.userSession (launch : Launch) (socket : Bool) (oldScreen connectorId : Int)
    (userName remoteAddr connType : String) (h : Wellformed s) :
    Wellformed (busStartUserSession c launch socket oldScreen connectorId userName remoteAddr connType s).2 := by
  obtain ⟨display,later,same⟩ | ⟨login,loginSess,_,⟨old,oldSess,_,_,_,same⟩ | ⟨_,x,launched,same⟩⟩ :=
    userSessionSource (c := c) launch socket oldScreen connectorId userName remoteAddr connType s
  · rw [same]
    exact ⟨h.own,fun p x found => (h.fresh p x found).trans_le later⟩
  · rw [same]
    have kept := (h.modify (p := old) (f := continueScreen loginSess connectorId remoteAddr connType)
      fun _ => rfl).modify (p := login) (f := moveEncryption) fun _ => rfl
    exact ⟨kept.own,kept.fresh⟩
  · rw [same]
    have kept := (h.launch (x := updateScreen c loginSess connectorId remoteAddr connType x)
      launched.displayNum).modify (p := login) (f := moveEncryption) fun _ => rfl
    exact ⟨kept.own,kept.fresh⟩

theorem stepWellformed (s : Service) (a : Action) (h : Wellformed s) : Wellformed (step c s a) := by
  cases quiet : background a with
  | true => exact h.background (stepBackground a quiet s)
  | false =>
    cases a with
    | startLoginSession launch connectorId remoteAddr connType =>
      simp only [step]
      obtain ⟨display,later,same⟩ | ⟨x,launched,same⟩ :=
        loginSessionSource (c := c) launch connectorId.id remoteAddr connType s
      · rw [same]
        exact ⟨h.own,fun p x found => (h.fresh p x found).trans_le later⟩
      · rw [same]
        have kept := h.launch (x := {x with remoteAddr,conntype := connType,connectorId := connectorId.id})
          launched.displayNum
        exact ⟨kept.own,kept.fresh⟩
    | startUserSession launch socket oldScreen connectorId userName remoteAddr connType =>
      exact h.userSession launch socket oldScreen connectorId.id userName remoteAddr connType
    | connectorConnected display connectorId =>
      simp only [step]
      unfold busConnectorConnected
      split
      · exact h
      · rename_i p x found
        have kept := h.modify (p := p)
          (f := fun x => {x with connectorId := connectorId.id,mode := .connected}) fun _ => rfl
        exact ⟨kept.own,kept.fresh⟩
    | connectorTerminated display connectorId => exact h.terminated display connectorId.id
    | setSessionPolicy display policy =>
      simp only [step]
      obtain same | ⟨p,policy',same⟩ := policySource display policy s
      · rw [same]
        exact h
      · rw [same]
        exact h.modify (by intro; rfl)
    | _ => contradiction

end
end Ltsm.SessionMoves
