import Ltsm.SessionMoves

/-! What the service does to the counts of its connected sessions. Outside the check of a
connector, its answers and its connection, no step touches them, and none but the check
gives a connector up. -/
namespace Ltsm.LivenessMoves
open Library XvfbSessions DBusAdaptor SessionMoves

/- Whether a ping of a connected session is out, and its failures. -/
def aliveView (x : XvfbSession) : Option (Bool × Nat) :=
  if x.mode = .connected then some (x.checkConnection,x.connectorFailures) else none

/- The session is in the pool, and what it holds against its connector. -/
def Online (s : Service) (p : XvfbSessionPtr) (v : Bool × Nat) : Prop :=
  some p ∈ s.pool.slots ∧ (s.pool.get p).bind aliveView = some v

def declared : Event → Option XvfbSessionPtr
  | .timedOut p _ => some p
  | _ => none

/- No session comes online or is counted otherwise, and no connector is given up. -/
structure Still (s t : Service) : Prop where
  sessions : ∀ p v, Online t p v → Online s p v
  history : ∃ added, t.history = added ++ s.history ∧ added.filterMap declared = []

section
variable {s t u : Service} {p : XvfbSessionPtr} {x : XvfbSession} {c : Config} {env : Environment}

theorem viewOnline (online : x.mode = .connected) : aliveView x = some (x.checkConnection,x.connectorFailures) :=
  if_pos online

theorem viewOffline (offline : x.mode ≠ .connected) : aliveView x = none := if_neg offline

theorem Still.refl (s : Service) : Still s s := ⟨fun _ _ online => online,[],rfl,rfl⟩

theorem Still.trans (first : Still s t) (second : Still t u) : Still s u := by
  obtain ⟨added,grown,none⟩ := first.history
  obtain ⟨more,grownMore,noneMore⟩ := second.history
  refine ⟨fun p v online => first.sessions p v (second.sessions p v online),more ++ added,?_,?_⟩
  · rw [grownMore,grown,List.append_assoc]
  · rw [List.filterMap_append,none,noneMore,List.append_nil]

theorem stillPost (task : Task) (s : Service) : Still s (s.post task) := ⟨fun _ _ online => online,[],rfl,rfl⟩

theorem stillEmit (signal : Signal) (s : Service) : Still s (s.emit signal) := ⟨fun _ _ online => online,[],rfl,rfl⟩

theorem stillTasks (tasks : List Task) (s : Service) : Still s {s with tasks} := ⟨fun _ _ online => online,[],rfl,rfl⟩

theorem stillDisplay (freeDisplay : Int) (s : Service) : Still s {s with freeDisplay} :=
  ⟨fun _ _ online => online,[],rfl,rfl⟩

theorem stillLogins (loginsDisable : Bool) (s : Service) : Still s {s with loginsDisable} :=
  ⟨fun _ _ online => online,[],rfl,rfl⟩

theorem stillLog {event : Event} (other : declared event = none) (s : Service) : Still s (s.log event) :=
  ⟨fun _ _ online => online,[event],rfl,by rw [List.filterMap_cons_none other,List.filterMap_nil]⟩

theorem stillModify {f : XvfbSession → XvfbSession} (keeps : ∀ x v, aliveView (f x) = some v → aliveView x = some v)
    (s : Service) : Still s (s.modify p f) := by
  refine ⟨fun q v online => ⟨online.1,?_⟩,[],rfl,rfl⟩
  obtain ⟨y,found,view⟩ := Option.bind_eq_some_iff.mp online.2
  obtain ⟨old,before,⟨_,image⟩ | ⟨_,image⟩⟩ := SharedPool.modifySource found
  · rw [image] at view
    rw [before]
    exact keeps old v view
  · rw [image] at view
    rw [before]
    exact view

/- The rule for changes of other fields. -/
theorem stillOther {f : XvfbSession → XvfbSession} (keeps : ∀ x, aliveView (f x) = aliveView x) (s : Service) :
    Still s (s.modify p f) := stillModify (fun x _ view => (keeps x).symm.trans view) s

theorem stillLaunch (offline : x.mode ≠ .connected) (s : Service) : Still s (s.launch x) := by
  refine ⟨fun q v online => ?_,[],rfl,rfl⟩
  obtain ⟨held,seen⟩ := online
  obtain ⟨y,found,view⟩ := Option.bind_eq_some_iff.mp seen
  obtain ⟨_,rfl⟩ | old := SharedPool.insertSource found
  · rw [viewOffline offline] at view
    cases view
  · obtain slot | new := SharedPool.insertSlots held
    · exact ⟨slot,by rw [old]; exact view⟩
    · have allocated := SharedPool.getAllocated old
      have pointer : q = s.pool.heap.length := Option.some.inj new
      exact absurd allocated (by rw [pointer]; exact Nat.lt_irrefl _)

theorem stillFold {α : Type*} {f : Service → α → Service} (each : ∀ s a, Still s (f s a)) (l : List α) (s : Service) :
    Still s (l.foldl f s) := by
  induction l generalizing s with
  | nil => exact .refl s
  | cons a rest ih => exact (each s a).trans (ih _)

theorem onSessionStill {f : XvfbSessionPtr → Service → Service} (display : Int) (each : ∀ p, Still s (f p s)) :
    Still s (onSession display f s) := by
  obtain same | ⟨p,_,_,same⟩ := sessionSource display f s
  · rw [same]
    exact .refl s
  · rw [same]
    exact each p

/-! Tasks. -/

theorem displayShutdownStill (p : XvfbSessionPtr) (emitSignal : Bool) (s : Service) :
    Still s (displayShutdown p emitSignal s) := by
  unfold displayShutdown
  split
  · exact .refl s
  rename_i x found
  split
  · exact .refl s
  have killed : Still s (if x.connectorId ≠ 0 ∧ x.mode ≠ .login then s.log (.killed x.connectorId) else s) := by
    split
    · exact stillLog rfl s
    · exact .refl s
  have off (x : XvfbSession) (v) (view : aliveView (shutDown x) = some v) : aliveView x = some v := by
    rw [viewOffline (by rw [shutDownMode]; exact nofun)] at view
    cases view
  have shut := killed.trans (stillModify (p := p) off _)
  dsimp only
  split
  · exact shut.trans ((stillEmit _ _).trans (stillPost _ _))
  · exact shut.trans (stillPost _ _)

theorem displayRemoveStill (p : XvfbSessionPtr) (s : Service) : Still s (displayRemove p s) := by
  unfold displayRemove
  split
  · exact .refl s
  · rename_i x found
    have removed : Still s {s with pool := removeDisplaySession x.displayNum s.pool} :=
      ⟨fun q v online => ⟨SharedPool.releaseSlots online.1,online.2⟩,[],rfl,rfl⟩
    exact removed.trans (stillEmit _ _)

theorem shutdownDisplayStill (display : Int) (s : Service) : Still s (busShutdownDisplay display s) :=
  onSessionStill display fun _ => stillPost _ s

theorem loginSuccessStill (login : String) (s : Service) : Still s (loginSuccess env p x login s) :=
  (stillEmit _ s).trans (stillLog rfl _)

theorem authSuccessStill (login : String) (s : Service) : Still s (authSuccess c env p x login s) := by
  have reset : Still s (if 0 < c.loginFailuresConf then s.modify p resetFailures else s) := by
    split
    · exact stillOther (by intro; rfl) s
    · exact .refl s
  have passed : Still s ((if 0 < c.loginFailuresConf then s.modify p resetFailures else s).log (.passed p login)) :=
    reset.trans (stillLog rfl _)
  unfold authSuccess
  dsimp only
  split
  · exact passed.trans (loginSuccessStill login _)
  · split
    · exact passed.trans (stillEmit _ _)
    · exact passed.trans ((stillEmit _ _).trans (stillPost _ _))
    · exact passed.trans (loginSuccessStill login _)

theorem pamAuthenticateStill (login password : String) (token : Bool) (s : Service) :
    Still s (pamAuthenticate c env p x login password token s) := by
  unfold pamAuthenticate
  split
  · exact .refl s
  split
  · exact stillEmit _ s
  split
  · exact authSuccessStill login s
  · exact stillPost _ s

theorem pamVerdictStill (login password : String) (s : Service) :
    Still s (pamVerdict c env p x login password s) := by
  unfold pamVerdict
  split
  · exact ((stillOther (by intro; rfl) s).trans (stillLog rfl _)).trans (stillPost _ _)
  · have counted : Still s (((s.emit (.loginFailure x.displayNum env.pamError)).modify p countFailure).log
        (.failed p login)) :=
      ((stillEmit _ s).trans (stillOther (by intro; rfl) _)).trans (stillLog rfl _)
    dsimp only
    split
    · exact counted.trans ((stillEmit _ _).trans (stillPost _ _))
    · exact counted

theorem pamAccountStill (login : String) (s : Service) : Still s (pamAccount c env p x login s) := by
  unfold pamAccount
  split
  · exact authSuccessStill login s
  · exact stillFold (fun s _ => shutdownDisplayStill _ s) _ s

theorem runTaskStill (task : Task) (other : ∀ p, task ≠ .checkConnected p) (s : Service) :
    Still s (runTask c env s task) := by
  cases task with
  | displayShutdown p emitSignal => exact displayShutdownStill p emitSignal s
  | displayRemove p => exact displayRemoveStill p s
  | checkConnected p => exact absurd rfl (other p)
  | shutdownConnector display => exact stillEmit _ s
  | pamAuthenticate p login password token =>
    simp only [runTask]
    split
    · exact .refl s
    · exact pamAuthenticateStill login password token s
  | pamVerdict p login password =>
    simp only [runTask]
    split
    · exact .refl s
    · exact pamVerdictStill login password s
  | pamAccount p login =>
    simp only [runTask]
    split
    · exact .refl s
    · exact pamAccountStill login s
  | pamWait p login =>
    simp only [runTask]
    split
    · exact .refl s
    · exact loginSuccessStill login s

/-! Requests. -/

theorem terminatedStill (display : Int) (connectorId : Pid) (s : Service) :
    Still s (busConnectorTerminated display connectorId.id s) := by
  unfold busConnectorTerminated
  split
  · exact .refl s
  rename_i p x found
  have own : connectorId.id ≠ -1 := by
    have positive := connectorId.positive
    omega
  have noted : Still s (reported p x connectorId.id s) := by
    rw [reported,if_pos own]
    exact stillLog rfl s
  dsimp only
  split
  · exact noted.trans (stillPost _ _)
  · split
    · refine noted.trans ((stillModify (f := detach) (fun x v view => ?_) _).trans (stillEmit _ _))
      cases view
    · exact noted

theorem loginSessionStill (launch : Launch) (connectorId : Int) (remoteAddr connType : String) (s : Service) :
    Still s (busStartLoginSession c launch connectorId remoteAddr connType s).2 := by
  obtain ⟨display,_,same⟩ | ⟨x,launched,same⟩ :=
    loginSessionSource (c := c) launch connectorId remoteAddr connType s
  · rw [same]
    exact stillDisplay display s
  · rw [same]
    have login : x.mode = .login := launched.mode.trans (if_pos rfl)
    refine (stillLaunch ?_ s).trans (stillLog rfl _)
    simp [login]

theorem userSessionStill (launch : Launch) (socket : Bool) (oldScreen connectorId : Int)
    (userName remoteAddr connType : String) (s : Service) :
    Still s (busStartUserSession c launch socket oldScreen connectorId userName remoteAddr connType s).2 := by
  obtain ⟨display,_,same⟩ | ⟨login,loginSess,_,⟨old,oldSess,_,_,_,same⟩ | ⟨_,x,_,same⟩⟩ :=
    userSessionSource (c := c) launch socket oldScreen connectorId userName remoteAddr connType s
  · rw [same]
    exact stillDisplay display s
  · rw [same]
    exact (((stillOther (by intro; rfl) s).trans (stillOther (by intro; rfl) _)).trans (stillEmit _ _)).trans
      (stillLog rfl _)
  · rw [same]
    have started : (updateScreen c loginSess connectorId remoteAddr connType x).mode ≠ .connected := nofun
    exact ((stillLaunch started s).trans (stillOther (by intro; rfl) _)).trans (stillLog rfl _)

/- The requests that are not about a connector that is there. -/
def stillAction : Action → Bool
  | .exec .. | .connectorConnected .. | .connectorAlive .. => false
  | _ => true

theorem stepStill (a : Action) (other : stillAction a = true) (s : Service) : Still s (step c s a) := by
  cases a with
  | startLoginSession launch connectorId remoteAddr connType =>
    exact loginSessionStill launch connectorId.id remoteAddr connType s
  | startUserSession launch socket oldScreen connectorId userName remoteAddr connType =>
    exact userSessionStill launch socket oldScreen connectorId.id userName remoteAddr connType s
  | connectorTerminated display connectorId => exact terminatedStill display connectorId s
  | setAuthenticateToken display login => exact onSessionStill display fun _ => stillPost _ s
  | setAuthenticateLoginPass display login password => exact onSessionStill display fun _ => stillPost _ s
  | shutdownDisplay display => exact shutdownDisplayStill display s
  | shutdownConnector display => exact stillPost _ s
  | setSessionPolicy display policy =>
    simp only [step]
    obtain same | ⟨p,policy',same⟩ := policySource display policy s
    · rw [same]
      exact .refl s
    · rw [same]
      exact stillOther (by intro; rfl) s
  | setEncryptionInfo display info => exact onSessionStill display fun _ => stillOther (by intro; rfl) s
  | setLoginsDisable action => exact stillLogins action s
  | checkTimer => exact stillFold (fun s _ => stillPost _ s) _ s
  | limitTimer limit display =>
    change Still s (timerSessionsTimeLimitAction limit display s)
    unfold timerSessionsTimeLimitAction
    split
    · exact .refl s
    cases limit with
    | life => exact stillPost _ s
    | online =>
      dsimp only
      split
      · exact stillEmit _ s
      · exact .refl s
    | offline =>
      dsimp only
      split
      · exact stillPost _ s
      · exact .refl s
  | sessionEnded pid =>
    change Still s (timerSessionsEndedAction pid s)
    unfold timerSessionsEndedAction
    split
    · exact .refl s
    · exact (stillOther (by intro; rfl) s).trans (stillPost _ _)
  | exec | connectorConnected | connectorAlive => contradiction

end
end Ltsm.LivenessMoves
