import Ltsm.SessionMoves

/-! What the service does to logins. Outside the tasks of an attempt and the requests
that start a session, no step touches what a login reads and leaves behind. -/
namespace Ltsm.LoginMoves
open Library XvfbSessions DBusAdaptor SessionMoves

structure LoginView where
  user : String
  password : String
  displayNum : Int
  loginFailures : Nat
  deriving DecidableEq, Repr

def loginView (x : XvfbSession) : LoginView := ⟨x.user,x.password,x.displayNum,x.loginFailures⟩

def isAttempt : Task → Bool
  | .pamAuthenticate .. | .pamVerdict .. | .pamAccount .. | .pamWait .. => true
  | _ => false

def isSuccess : Signal → Bool
  | .loginSuccess .. => true
  | _ => false

def isLogin : Event → Bool
  | .loginScreen .. | .created .. | .resumed .. | .failed .. | .accepted .. | .passed .. | .succeeded .. => true
  | _ => false

structure Quiet (s t : Service) : Prop where
  sessions : SharedPool.Alike loginView s.pool t.pool
  tasks : ∀ task ∈ t.tasks, isAttempt task = true → task ∈ s.tasks
  signals : ∃ sent, t.signals = s.signals ++ sent ∧ ∀ signal ∈ sent, isSuccess signal = false
  history : t.history.filter isLogin = s.history.filter isLogin

/- The tests before PAM let the login through. -/
def admitted (c : Config) (env : Environment) (login : String) (s : Service) : Bool :=
  (AllowLogins.getAllowLogins c.access env.db).any fun users => loginRefusal env users login s = none

section
variable {s t u : Service} {p : XvfbSessionPtr} {x : XvfbSession} {c : Config} {env : Environment}

theorem sentNone {signals : List Signal} :
    ∃ sent, signals = signals ++ sent ∧ ∀ signal ∈ sent, isSuccess signal = false :=
  ⟨[],(List.append_nil signals).symm,by simp⟩

theorem Quiet.refl (s : Service) : Quiet s s := ⟨fun _ => rfl,fun _ inside _ => inside,sentNone,rfl⟩

theorem Quiet.trans (first : Quiet s t) (second : Quiet t u) : Quiet s u := by
  refine ⟨fun p => (second.sessions p).trans (first.sessions p),
    fun task inside attempt => first.tasks task (second.tasks task inside attempt) attempt,?_,
    second.history.trans first.history⟩
  obtain ⟨before,sent,none⟩ := first.signals
  obtain ⟨after,sentToo,noneToo⟩ := second.signals
  refine ⟨before ++ after,by rw [sentToo,sent,List.append_assoc],?_⟩
  intro signal inside
  rcases List.mem_append.mp inside with early | late
  · exact none signal early
  · exact noneToo signal late

theorem Quiet.source (same : Quiet s t) (found : t.pool.get p = some x) :
    ∃ old, s.pool.get p = some old ∧ loginView x = loginView old := same.sessions.source found

theorem Quiet.target (same : Quiet s t) (found : s.pool.get p = some x) :
    ∃ new, t.pool.get p = some new ∧ loginView new = loginView x := same.sessions.target found

theorem Quiet.success (same : Quiet s t) {display : Int} {user : String} {uid : UInt32} :
    .loginSuccess display user uid ∈ t.signals ↔ .loginSuccess display user uid ∈ s.signals := by
  obtain ⟨sent,grown,none⟩ := same.signals
  rw [grown,List.mem_append]
  constructor
  · intro inside
    rcases inside with old | new
    · exact old
    · have other := none _ new
      contradiction
  · exact .inl

theorem Quiet.event (same : Quiet s t) {event : Event} (login : isLogin event = true) :
    event ∈ t.history ↔ event ∈ s.history := by
  have kept : event ∈ t.history.filter isLogin ↔ event ∈ s.history.filter isLogin := by
    rw [same.history]
  simpa [List.mem_filter,login] using kept

theorem quietPost {task : Task} (other : isAttempt task = false) (s : Service) : Quiet s (s.post task) := by
  refine ⟨fun _ => rfl,?_,sentNone,rfl⟩
  intro queued inside attempt
  rcases List.mem_append.mp inside with old | new
  · exact old
  · cases List.mem_singleton.mp new
    rw [other] at attempt
    contradiction

theorem quietEmit {g : Signal} (other : isSuccess g = false) (s : Service) : Quiet s (s.emit g) := by
  refine ⟨fun _ => rfl,fun _ inside _ => inside,⟨[g],rfl,?_⟩,rfl⟩
  intro sent inside
  cases List.mem_singleton.mp inside
  exact other

theorem quietLog {event : Event} (other : isLogin event = false) (s : Service) : Quiet s (s.log event) := by
  refine ⟨fun _ => rfl,fun _ inside _ => inside,sentNone,?_⟩
  rw [Service.logHistory,List.filter_cons_of_neg (by simp [other])]

theorem quietModify {f : XvfbSession → XvfbSession} (keeps : ∀ x, loginView (f x) = loginView x)
    (s : Service) : Quiet s (s.modify p f) :=
  ⟨SharedPool.alikeModify keeps,fun _ inside _ => inside,sentNone,rfl⟩

theorem quietErase (index : Nat) (s : Service) : Quiet s {s with tasks := s.tasks.eraseIdx index} :=
  ⟨fun _ => rfl,fun _ inside _ => List.mem_of_mem_eraseIdx inside,sentNone,rfl⟩

theorem quietFold {α : Type*} {f : Service → α → Service} (each : ∀ s a, Quiet s (f s a))
    (l : List α) (s : Service) : Quiet s (l.foldl f s) := by
  induction l generalizing s with
  | nil => exact .refl s
  | cons a rest ih => exact (each s a).trans (ih _)

theorem displayShutdownQuiet (emitSignal : Bool) (s : Service) :
    Quiet s (displayShutdown p emitSignal s) := by
  have keeps := shutDownKeeps loginView fun _ _ _ => rfl
  unfold displayShutdown
  split
  · exact .refl s
  rename_i x found
  split
  · exact .refl s
  have killed : Quiet s (if x.connectorId ≠ 0 ∧ x.mode ≠ .login then
      s.log (.killed x.connectorId) else s) := by
    split
    · exact quietLog rfl s
    · exact .refl s
  have shut := killed.trans (quietModify (p := p) keeps _)
  dsimp only
  split
  · exact shut.trans ((quietEmit rfl _).trans (quietPost rfl _))
  · exact shut.trans (quietPost rfl _)

theorem displayRemoveQuiet (s : Service) : Quiet s (displayRemove p s) := by
  unfold displayRemove
  split
  · exact .refl s
  · rename_i x found
    have removed : Quiet s {s with pool := removeDisplaySession x.displayNum s.pool} :=
      ⟨fun _ => rfl,fun _ inside _ => inside,sentNone,rfl⟩
    exact removed.trans (quietEmit rfl _)

theorem onSessionQuiet {f : XvfbSessionPtr → Service → Service} (display : Int)
    (each : ∀ p, Quiet s (f p s)) : Quiet s (onSession display f s) := by
  obtain same | ⟨p,_,_,same⟩ := sessionSource display f s
  · rw [same]
    exact .refl s
  · rw [same]
    exact each p

theorem shutdownDisplayQuiet (display : Int) (s : Service) : Quiet s (busShutdownDisplay display s) :=
  onSessionQuiet display fun _ => quietPost rfl s

theorem connectedQuiet (display connectorId : Int) (s : Service) :
    Quiet s (busConnectorConnected display connectorId s) := by
  unfold busConnectorConnected
  split
  · exact .refl s
  · exact (quietModify (by intro; rfl) s).trans ((quietEmit rfl _).trans (quietLog rfl _))

theorem terminatedQuiet (display connectorId : Int) (s : Service) :
    Quiet s (busConnectorTerminated display connectorId s) := by
  unfold busConnectorTerminated
  split
  · exact .refl s
  rename_i p x found
  have noted : Quiet s (reported p x connectorId s) := by
    unfold reported
    split
    · exact quietLog rfl s
    · split
      · exact quietLog rfl s
      · exact .refl s
  dsimp only
  split
  · exact noted.trans (quietPost rfl _)
  · split
    · exact noted.trans ((quietModify (f := detach) (fun _ => rfl) _).trans (quietEmit rfl _))
    · exact noted

theorem checkConnectedQuiet (s : Service) : Quiet s (checkConnected p s) := by
  unfold checkConnected
  split
  · exact .refl s
  split
  · have counted : Quiet s (s.modify p fun x => {x with connectorFailures := x.connectorFailures + 1}) :=
      quietModify (by intro; rfl) s
    dsimp only
    split
    · exact counted.trans (terminatedQuiet _ _ _)
    · exact counted.trans (quietModify (by intro; rfl) _)
  · exact (quietModify (by intro; rfl) s).trans (quietEmit rfl _)

theorem runTaskQuiet (task : Task) (other : isAttempt task = false) (s : Service) :
    Quiet s (runTask c env s task) := by
  cases task with
  | displayShutdown p emitSignal => exact displayShutdownQuiet emitSignal s
  | displayRemove p => exact displayRemoveQuiet s
  | checkConnected p => exact checkConnectedQuiet s
  | shutdownConnector display => exact quietEmit rfl s
  | _ => contradiction

/- The requests that neither start a session nor try a login. -/
def quietAction : Action → Bool
  | .exec .. | .startLoginSession .. | .startUserSession .. | .setAuthenticateToken ..
  | .setAuthenticateLoginPass .. => false
  | _ => true

theorem stepQuiet (a : Action) (other : quietAction a = true) (s : Service) : Quiet s (step c s a) := by
  cases a with
  | connectorConnected display connectorId => exact connectedQuiet display connectorId.id s
  | connectorTerminated display connectorId => exact terminatedQuiet display connectorId.id s
  | connectorAlive display => exact onSessionQuiet display fun _ => quietModify (by intro; rfl) s
  | shutdownDisplay display => exact shutdownDisplayQuiet display s
  | shutdownConnector display => exact quietPost rfl s
  | setSessionPolicy display policy =>
    simp only [step]
    obtain same | ⟨p,policy',same⟩ := policySource display policy s
    · rw [same]
      exact .refl s
    · rw [same]
      exact quietModify (by intro; rfl) s
  | setEncryptionInfo display info => exact onSessionQuiet display fun _ => quietModify (by intro; rfl) s
  | setLoginsDisable action =>
    have set : Quiet s (busSetLoginsDisable action s) := ⟨fun _ => rfl,fun _ inside _ => inside,sentNone,rfl⟩
    exact set
  | checkTimer => exact quietFold (fun s _ => quietPost rfl s) _ s
  | limitTimer limit display =>
    change Quiet s (timerSessionsTimeLimitAction limit display s)
    unfold timerSessionsTimeLimitAction
    split
    · exact .refl s
    cases limit with
    | life => exact quietPost rfl s
    | online =>
      dsimp only
      split
      · exact quietEmit rfl s
      · exact .refl s
    | offline =>
      dsimp only
      split
      · exact quietPost rfl s
      · exact .refl s
  | sessionEnded pid =>
    change Quiet s (timerSessionsEndedAction pid s)
    unfold timerSessionsEndedAction
    split
    · exact .refl s
    · exact (quietModify (by intro; rfl) s).trans (quietPost rfl _)
  | exec | startLoginSession | startUserSession | setAuthenticateToken | setAuthenticateLoginPass =>
    contradiction

end
end Ltsm.LoginMoves
