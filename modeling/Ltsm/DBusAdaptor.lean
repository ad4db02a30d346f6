import Ltsm.AllowLogins
import Ltsm.XvfbSessions
import Ltsm.Library.Run

/-! The service. Requests of the bus are handled one at a time by the thread of the
connection; what is posted runs on the threads of the executor, in any order and
between any two requests. A posted function that blocks is cut where it blocks, and
the rest of it is a task of its own. -/
namespace Ltsm.DBusAdaptor
open Library XvfbSessions AllowLogins

structure Config where
  access : AccessConfig
  failuresCount : Option Int
  limitUsers : Option Int
  policy : String
  deriving DecidableEq, Repr

/- `login:failures_count`; a negative number counts as none. -/
def Config.loginFailuresConf (c : Config) : Nat := (c.failuresCount.getD 0).toNat

def Config.sessionPolicy (c : Config) : SessionPolicy := XvfbSessions.sessionPolicy c.policy.toLower

/- What the system answers while a display session is launched: the xauth file, the
fork, the session bus of the child and the owner of its socket. -/
structure Launch where
  db : SystemDb
  xauthfile : Bool
  pid1 : Option Int
  started : Bool
  permission : Bool

/- What the user database and PAM answer to an attempt. -/
structure Environment where
  db : SystemDb
  pamStarted : Bool
  authenticated : Bool
  pamError : String
  validAccount : Bool

structure Pid where
  id : Int
  positive : 0 < id
  deriving DecidableEq, Repr

inductive Task where
  | displayShutdown (xvfb : XvfbSessionPtr) (emitSignal : Bool)
  | displayRemove (xvfb : XvfbSessionPtr)
  | pamAuthenticate (xvfb : XvfbSessionPtr) (login password : String) (token : Bool)
  | pamVerdict (xvfb : XvfbSessionPtr) (login password : String)
  | pamAccount (xvfb : XvfbSessionPtr) (login : String)
  | pamWait (xvfb : XvfbSessionPtr) (login : String)
  | checkConnected (xvfb : XvfbSessionPtr)
  | shutdownConnector (display : Int)
  deriving DecidableEq, Repr

inductive Signal where
  | loginFailure (display : Int) (msg : String)
  | loginSuccess (display : Int) (userName : String) (userUid : UInt32)
  | shutdownConnector (display : Int)
  | displayRemoved (display : Int)
  | sessionReconnect (remoteAddr connType : String)
  | sessionOnline (display : Int) (userName : String)
  | sessionOffline (display : Int) (userName : String)
  | pingConnector (display : Int)
  deriving DecidableEq, Repr

/- What happened to a session, for the statements about runs. -/
inductive Event where
  | loginScreen (xvfb : XvfbSessionPtr)
  | created (loginSess xvfb : XvfbSessionPtr) (user password : String) (connectorId : Int)
  | resumed (loginSess xvfb : XvfbSessionPtr) (user : String) (connectorId : Int)
  | connected (xvfb : XvfbSessionPtr) (connectorId : Int)
  | terminated (xvfb : XvfbSessionPtr) (connectorId : Int)
  | timedOut (xvfb : XvfbSessionPtr) (connectorId : Int)
  | killed (connectorId : Int)
  | failed (xvfb : XvfbSessionPtr) (login : String)
  | accepted (xvfb : XvfbSessionPtr) (login password : String)
  | passed (xvfb : XvfbSessionPtr) (login : String)
  | succeeded (xvfb : XvfbSessionPtr) (login : String)
  deriving DecidableEq, Repr

structure Service where
  pool : XvfbPool
  freeDisplay : Int
  loginsDisable : Bool
  tasks : List Task
  signals : List Signal
  history : List Event

def start : Service := ⟨SharedPool.empty 300,101,false,[],[],[]⟩

namespace Service

def post (task : Task) (s : Service) : Service := {s with tasks := s.tasks ++ [task]}
def emit (signal : Signal) (s : Service) : Service := {s with signals := s.signals ++ [signal]}
def log (event : Event) (s : Service) : Service := {s with history := event :: s.history}
def modify (xvfb : XvfbSessionPtr) (f : XvfbSession → XvfbSession) (s : Service) : Service :=
  {s with pool := s.pool.modify xvfb f}
/- A session takes the next display and a slot of the pool. -/
def launch (x : XvfbSession) (s : Service) : Service :=
  {s with pool := s.pool.insert x, freeDisplay := s.freeDisplay + 1}

variable (s : Service) (task : Task) (signal : Signal) (event : Event) (xvfb : XvfbSessionPtr)
  (f : XvfbSession → XvfbSession) (x : XvfbSession)

@[simp] theorem postPool : (s.post task).pool = s.pool := rfl
@[simp] theorem postTasks : (s.post task).tasks = s.tasks ++ [task] := rfl
@[simp] theorem postSignals : (s.post task).signals = s.signals := rfl
@[simp] theorem postHistory : (s.post task).history = s.history := rfl
@[simp] theorem postDisplay : (s.post task).freeDisplay = s.freeDisplay := rfl
@[simp] theorem emitPool : (s.emit signal).pool = s.pool := rfl
@[simp] theorem emitTasks : (s.emit signal).tasks = s.tasks := rfl
@[simp] theorem emitSignals : (s.emit signal).signals = s.signals ++ [signal] := rfl
@[simp] theorem emitHistory : (s.emit signal).history = s.history := rfl
@[simp] theorem emitDisplay : (s.emit signal).freeDisplay = s.freeDisplay := rfl
@[simp] theorem logPool : (s.log event).pool = s.pool := rfl
@[simp] theorem logTasks : (s.log event).tasks = s.tasks := rfl
@[simp] theorem logSignals : (s.log event).signals = s.signals := rfl
@[simp] theorem logHistory : (s.log event).history = event :: s.history := rfl
@[simp] theorem logDisplay : (s.log event).freeDisplay = s.freeDisplay := rfl
@[simp] theorem modifyPool : (s.modify xvfb f).pool = s.pool.modify xvfb f := rfl
@[simp] theorem modifyTasks : (s.modify xvfb f).tasks = s.tasks := rfl
@[simp] theorem modifySignals : (s.modify xvfb f).signals = s.signals := rfl
@[simp] theorem modifyHistory : (s.modify xvfb f).history = s.history := rfl
@[simp] theorem modifyDisplay : (s.modify xvfb f).freeDisplay = s.freeDisplay := rfl
@[simp] theorem launchPool : (s.launch x).pool = s.pool.insert x := rfl
@[simp] theorem launchTasks : (s.launch x).tasks = s.tasks := rfl
@[simp] theorem launchSignals : (s.launch x).signals = s.signals := rfl
@[simp] theorem launchHistory : (s.launch x).history = s.history := rfl
@[simp] theorem launchDisplay : (s.launch x).freeDisplay = s.freeDisplay + 1 := rfl

end Service

/- Most requests name a display, and do nothing where no session has it. -/
def onSession (display : Int) (f : XvfbSessionPtr → Service → Service) (s : Service) : Service :=
  match findDisplaySession s.pool display with
  | none => s
  | some (xvfb,_) => f xvfb s

theorem sessionSource (display : Int) (f : XvfbSessionPtr → Service → Service) (s : Service) :
    onSession display f s = s ∨
      ∃ p x, findDisplaySession s.pool display = some (p,x) ∧ onSession display f s = f p s := by
  unfold onSession
  cases findDisplaySession s.pool display with
  | none => exact .inl rfl
  | some entry => exact .inr ⟨entry.1,entry.2,rfl,rfl⟩

/-! Shutdown of a display. -/

def shutDown (x : XvfbSession) : XvfbSession :=
  if x.connectorId ≠ 0 ∧ x.mode ≠ .login then {x with connectorId := 0, mode := .shutdown}
  else {x with mode := .shutdown}

@[simp] theorem shutDownMode (x : XvfbSession) : (shutDown x).mode = .shutdown := by
  unfold shutDown
  split <;> rfl

theorem shutDownKeeps {α : Type*} (g : XvfbSession → α)
    (blind : ∀ (x : XvfbSession) connectorId mode, g {x with connectorId,mode} = g x) (x : XvfbSession) :
    g (shutDown x) = g x := by
  unfold shutDown
  split
  · exact blind x 0 .shutdown
  · exact blind x x.connectorId .shutdown

/- Up to the scripts, which run while the session still has its slot. -/
def displayShutdown (ptr : XvfbSessionPtr) (emitSignal : Bool) (s : Service) : Service :=
  match s.pool.get ptr with
  | none => s
  | some xvfb =>
    if xvfb.mode = .shutdown then s
    else
      let s := if xvfb.connectorId ≠ 0 ∧ xvfb.mode ≠ .login then s.log (.killed xvfb.connectorId) else s
      let s := s.modify ptr shutDown
      let s := if emitSignal then s.emit (.shutdownConnector xvfb.displayNum) else s
      s.post (.displayRemove ptr)

def displayRemove (ptr : XvfbSessionPtr) (s : Service) : Service :=
  match s.pool.get ptr with
  | none => s
  | some xvfb =>
    {s with pool := removeDisplaySession xvfb.displayNum s.pool}.emit (.displayRemoved xvfb.displayNum)

def busShutdownDisplay (display : Int) : Service → Service :=
  onSession display fun xvfb => .post (.displayShutdown xvfb true)

def busShutdownConnector (display : Int) (s : Service) : Service := s.post (.shutdownConnector display)

/-! Authentication. -/

def busSetAuthenticateToken (display : Int) (login : String) : Service → Service :=
  onSession display fun xvfb => .post (.pamAuthenticate xvfb login "******" true)

def busSetAuthenticateLoginPass (display : Int) (login password : String) : Service → Service :=
  onSession display fun xvfb => .post (.pamAuthenticate xvfb login password false)

def getUserUid (db : SystemDb) (user : String) : UInt32 :=
  ((db.passwd.find? fun st => st.user = user).map Passwd.uid).getD 0

def loginSuccess (env : Environment) (ptr : XvfbSessionPtr) (xvfb : XvfbSession) (login : String)
    (s : Service) : Service :=
  (s.emit (.loginSuccess xvfb.displayNum login (getUserUid env.db login))).log (.succeeded ptr login)

/- The session that the connection policy is tested on. -/
def busySession (pool : XvfbPool) (login : String) : Option XvfbSession :=
  match findUserSession pool login with
  | some (_,userSess) => if 0 < userSess.displayNum ∧ userSess.mode = .connected then some userSess else none
  | none => none

def resetFailures (x : XvfbSession) : XvfbSession := {x with loginFailures := 0}
def countFailure (x : XvfbSession) : XvfbSession := {x with loginFailures := x.loginFailures + 1}

def authSuccess (c : Config) (env : Environment) (ptr : XvfbSessionPtr) (xvfb : XvfbSession)
    (login : String) (s : Service) : Service :=
  let s := if 0 < c.loginFailuresConf then s.modify ptr resetFailures else s
  let s := s.log (.passed ptr login)
  match busySession s.pool login with
  | none => loginSuccess env ptr xvfb login s
  | some userSess =>
    match userSess.policy with
    | .authLock => s.emit (.loginFailure xvfb.displayNum ("session busy, from: " ++ userSess.remoteAddr))
    | .authTake => (s.emit (.shutdownConnector userSess.displayNum)).post (.pamWait ptr login)
    | .authShare => loginSuccess env ptr xvfb login s

/- The text that the tests before PAM fail with. -/
def loginRefusal (env : Environment) (users : List String) (login : String) (s : Service) : Option String :=
  match accessRefusal users login with
  | some error => some error
  | none =>
    if s.loginsDisable then some "logins disabled by the administrator"
    else if env.pamStarted then none
    else some "pam error"

/- Nothing is said of what follows the undefined splice. -/
def pamAuthenticate (c : Config) (env : Environment) (ptr : XvfbSessionPtr) (xvfb : XvfbSession)
    (login password : String) (token : Bool) (s : Service) : Service :=
  match getAllowLogins c.access env.db with
  | none => s
  | some users =>
    match loginRefusal env users login s with
    | some error => s.emit (.loginFailure xvfb.displayNum error)
    | none =>
      if token then authSuccess c env ptr xvfb login s
      else s.post (.pamVerdict ptr login password)

/- `pam->authenticate()` has returned. -/
def pamVerdict (c : Config) (env : Environment) (ptr : XvfbSessionPtr) (xvfb : XvfbSession)
    (login password : String) (s : Service) : Service :=
  if env.authenticated then
    ((s.modify ptr fun x => {x with password}).log (.accepted ptr login password)).post
      (.pamAccount ptr login)
  else
    let s := (s.emit (.loginFailure xvfb.displayNum env.pamError)).modify ptr countFailure
    let s := s.log (.failed ptr login)
    if c.loginFailuresConf < xvfb.loginFailures + 1 then
      (s.emit (.loginFailure xvfb.displayNum "failures limit")).post (.displayShutdown ptr true)
    else s

/- `pam->validateAccount()` has returned. -/
def pamAccount (c : Config) (env : Environment) (ptr : XvfbSessionPtr) (xvfb : XvfbSession)
    (login : String) (s : Service) : Service :=
  if env.validAccount then authSuccess c env ptr xvfb login s
  else (findUserSessions s.pool login).foldl (fun s sess => busShutdownDisplay sess.2.displayNum s) s

/-! Display sessions and their connectors. -/

def runNewDisplaySession (c : Config) (launch : Launch) (username pass : String) (s : Service) :
    Option XvfbSessionPtr × Service :=
  match launch.db.passwd.find? fun st => st.user = username with
  | none => (none,s)
  | some userInfo =>
    if userInfo.uid = 0 then (none,s)
    else if s.pool.full then (none,s)
    else if 0 < c.limitUsers.getD 0 ∧ c.limitUsers.getD 0 ≤ (getSessionsUsersUid s.pool).length then (none,s)
    else
      let freeDisplay := s.freeDisplay
      let s := {s with freeDisplay := s.freeDisplay + 1}
      if launch.xauthfile then
        match launch.pid1 with
        | none => (none,s)
        | some pid1 =>
          if launch.started ∧ launch.permission then
            let mode := if username = ltsmUserConn then .login else .started
            let sess := {user := userInfo.user, uid := userInfo.uid, password := pass, pid1, mode,
                         displayNum := freeDisplay}
            (some s.pool.heap.length,{s with pool := s.pool.insert sess})
          else (none,s)
      else (none,s)

def busStartLoginSession (c : Config) (launch : Launch) (connectorId : Int) (remoteAddr connType : String)
    (s : Service) : Int × Service :=
  let display := s.freeDisplay
  match runNewDisplaySession c launch ltsmUserConn "" s with
  | (none,s) => (-1,s)
  | (some sess,s) =>
    (display,(s.modify sess fun x => {x with remoteAddr, conntype := connType, connectorId}).log
      (.loginScreen sess))

def checkDisplaySessionAlive (socket : Bool) (display : Int) : Bool := 0 < display && socket

/- What a session takes over from the login screen and its connector. -/
def continueScreen (loginSess : XvfbSession) (connectorId : Int) (remoteAddr connType : String)
    (x : XvfbSession) : XvfbSession :=
  {x with remoteAddr, conntype := connType, connectorId, encryption := loginSess.encryption}

def updateScreen (c : Config) (loginSess : XvfbSession) (connectorId : Int) (remoteAddr connType : String)
    (x : XvfbSession) : XvfbSession :=
  {x with encryption := loginSess.encryption, remoteAddr, conntype := connType, connectorId,
          policy := c.sessionPolicy, mode := .started}

/- The string is moved out of the login session. -/
def moveEncryption (x : XvfbSession) : XvfbSession := {x with encryption := ""}

def busStartUserSession (c : Config) (launch : Launch) (socket : Bool) (oldScreen connectorId : Int)
    (userName remoteAddr connType : String) (s : Service) : Int × Service :=
  match findDisplaySession s.pool oldScreen with
  | none => (-1,s)
  | some (login,loginSess) =>
    match findUserSessions s.pool userName with
    | (old,oldSess) :: _ =>
      if checkDisplaySessionAlive socket oldSess.displayNum then
        let s := s.modify old (continueScreen loginSess connectorId remoteAddr connType)
        let s := (s.modify login moveEncryption).emit (.sessionReconnect remoteAddr connType)
        (oldSess.displayNum,s.log (.resumed login old userName connectorId))
      else (-1,s)
    | [] =>
      let display := s.freeDisplay
      match runNewDisplaySession c launch userName loginSess.password s with
      | (none,s) => (-1,s)
      | (some new,s) =>
        let s := s.modify new (updateScreen c loginSess connectorId remoteAddr connType)
        let s := s.modify login moveEncryption
        (display,s.log (.created login new userName loginSess.password connectorId))

def busConnectorAlive (display : Int) : Service → Service :=
  onSession display fun xvfb => .modify xvfb fun x => {x with checkConnection := false, connectorFailures := 0}

def busConnectorConnected (display connectorId : Int) (s : Service) : Service :=
  match findDisplaySession s.pool display with
  | none => s
  | some (ptr,xvfb) =>
    let s := s.modify ptr fun x => {x with connectorId, mode := .connected}
    (s.emit (.sessionOnline xvfb.displayNum xvfb.user)).log (.connected ptr connectorId)

def detach (x : XvfbSession) : XvfbSession :=
  {x with checkConnection := false, remoteAddr := "", conntype := "", encryption := "",
          connectorId := 0, mode := .disconnected}

/- The timer passes -1 for a connector that does not answer. -/
def reported (ptr : XvfbSessionPtr) (xvfb : XvfbSession) (connectorId : Int) (s : Service) : Service :=
  if connectorId ≠ -1 then s.log (.terminated ptr connectorId)
  else if xvfb.mode = .connected then s.log (.timedOut ptr xvfb.connectorId)
  else s

/- Whose report it is plays no part in what happens to the session. -/
def busConnectorTerminated (display connectorId : Int) (s : Service) : Service :=
  match findDisplaySession s.pool display with
  | none => s
  | some (ptr,xvfb) =>
    let s := reported ptr xvfb connectorId s
    if xvfb.mode = .login then s.post (.displayShutdown ptr false)
    else if xvfb.mode = .connected then (s.modify ptr detach).emit (.sessionOffline xvfb.displayNum xvfb.user)
    else s

def busSetSessionPolicy (display : Int) (policy : String) : Service → Service :=
  onSession display fun xvfb s =>
    if policy.toLower = "authlock" then s.modify xvfb fun x => {x with policy := .authLock}
    else if policy.toLower = "authtake" then s.modify xvfb fun x => {x with policy := .authTake}
    else if policy.toLower = "authshare" then s.modify xvfb fun x => {x with policy := .authShare}
    else s

theorem policySource (display : Int) (policy : String) (s : Service) : busSetSessionPolicy display policy s = s ∨
    ∃ p policy', busSetSessionPolicy display policy s = s.modify p fun x => {x with policy := policy'} := by
  unfold busSetSessionPolicy
  obtain same | ⟨p,x,_,same⟩ := sessionSource display _ s
  · exact .inl same
  rw [same]
  split
  · exact .inr ⟨p,.authLock,rfl⟩
  split
  · exact .inr ⟨p,.authTake,rfl⟩
  split
  · exact .inr ⟨p,.authShare,rfl⟩
  · exact .inl rfl

def busSetEncryptionInfo (display : Int) (info : String) : Service → Service :=
  onSession display fun xvfb => .modify xvfb fun x => {x with encryption := info}

def busSetLoginsDisable (action : Bool) (s : Service) : Service := {s with loginsDisable := action}

/-! Timers. The sessions a timer has picked are looked at one by one. -/

def timerSessionsCheckConnectedAction (s : Service) : Service :=
  (getOnlineSessions s.pool).foldl (fun s sess => s.post (.checkConnected sess.1)) s

def checkConnected (ptr : XvfbSessionPtr) (s : Service) : Service :=
  match s.pool.get ptr with
  | none => s
  | some xvfb =>
    if xvfb.checkConnection then
      let s := s.modify ptr fun x => {x with connectorFailures := x.connectorFailures + 1}
      if 3 < xvfb.connectorFailures + 1 then busConnectorTerminated xvfb.displayNum (-1) s
      else s.modify ptr fun x => {x with checkConnection := false}
    else (s.modify ptr fun x => {x with checkConnection := true}).emit (.pingConnector xvfb.displayNum)

inductive TimeLimit where
  | life
  | online
  | offline
  deriving DecidableEq, Repr

/- A session of the pool has run into one of its time limits. -/
def timerSessionsTimeLimitAction (limit : TimeLimit) (display : Int) (s : Service) : Service :=
  match findDisplaySession s.pool display with
  | none => s
  | some (ptr,xvfb) =>
    match limit with
    | .life => s.post (.displayShutdown ptr true)
    | .online => if xvfb.mode = .connected then s.emit (.shutdownConnector display) else s
    | .offline => if xvfb.mode = .disconnected then s.post (.displayShutdown ptr true) else s

def timerSessionsEndedAction (pid : Pid) (s : Service) : Service :=
  match findPidSession s.pool pid.id with
  | none => s
  | some (ptr,_) => (s.modify ptr fun x => {x with pid1 := 0}).post (.displayShutdown ptr true)

/- A task on one of the executor threads. Its pointer keeps the session alive. -/
def runTask (c : Config) (env : Environment) (s : Service) : Task → Service
  | .displayShutdown xvfb emitSignal => displayShutdown xvfb emitSignal s
  | .displayRemove xvfb => displayRemove xvfb s
  | .checkConnected xvfb => checkConnected xvfb s
  | .shutdownConnector display => s.emit (.shutdownConnector display)
  | .pamAuthenticate ptr login password token =>
    match s.pool.get ptr with
    | none => s
    | some xvfb => pamAuthenticate c env ptr xvfb login password token s
  | .pamVerdict ptr login password =>
    match s.pool.get ptr with
    | none => s
    | some xvfb => pamVerdict c env ptr xvfb login password s
  | .pamAccount ptr login =>
    match s.pool.get ptr with
    | none => s
    | some xvfb => pamAccount c env ptr xvfb login s
  | .pamWait ptr login =>
    match s.pool.get ptr with
    | none => s
    | some xvfb => loginSuccess env ptr xvfb login s

inductive Action where
  | exec (index : Nat) (env : Environment)
  | startLoginSession (launch : Launch) (connectorId : Pid) (remoteAddr connType : String)
  | startUserSession (launch : Launch) (socket : Bool) (oldScreen : Int) (connectorId : Pid)
      (userName remoteAddr connType : String)
  | connectorConnected (display : Int) (connectorId : Pid)
  | connectorTerminated (display : Int) (connectorId : Pid)
  | connectorAlive (display : Int)
  | setAuthenticateToken (display : Int) (login : String)
  | setAuthenticateLoginPass (display : Int) (login password : String)
  | shutdownDisplay (display : Int)
  | shutdownConnector (display : Int)
  | setSessionPolicy (display : Int) (policy : String)
  | setEncryptionInfo (display : Int) (info : String)
  | setLoginsDisable (action : Bool)
  | checkTimer
  | limitTimer (limit : TimeLimit) (display : Int)
  | sessionEnded (pid : Pid)

def exec (c : Config) (index : Nat) (env : Environment) (s : Service) : Service :=
  match s.tasks[index]? with
  | none => s
  | some task => runTask c env {s with tasks := s.tasks.eraseIdx index} task

def step (c : Config) (s : Service) : Action → Service
  | .exec index env => exec c index env s
  | .startLoginSession launch connectorId remoteAddr connType =>
    (busStartLoginSession c launch connectorId.id remoteAddr connType s).2
  | .startUserSession launch socket oldScreen connectorId userName remoteAddr connType =>
    (busStartUserSession c launch socket oldScreen connectorId.id userName remoteAddr connType s).2
  | .connectorConnected display connectorId => busConnectorConnected display connectorId.id s
  | .connectorTerminated display connectorId => busConnectorTerminated display connectorId.id s
  | .connectorAlive display => busConnectorAlive display s
  | .setAuthenticateToken display login => busSetAuthenticateToken display login s
  | .setAuthenticateLoginPass display login password => busSetAuthenticateLoginPass display login password s
  | .shutdownDisplay display => busShutdownDisplay display s
  | .shutdownConnector display => busShutdownConnector display s
  | .setSessionPolicy display policy => busSetSessionPolicy display policy s
  | .setEncryptionInfo display info => busSetEncryptionInfo display info s
  | .setLoginsDisable action => busSetLoginsDisable action s
  | .checkTimer => timerSessionsCheckConnectedAction s
  | .limitTimer limit display => timerSessionsTimeLimitAction limit display s
  | .sessionEnded pid => timerSessionsEndedAction pid s

/-! A host with two users, whose displays all start. -/

def hostDb : SystemDb := ⟨[⟨ltsmUserConn,900⟩,⟨"alice",1000⟩,⟨"bob",1001⟩],fun _ => none⟩
def hostLaunch : Launch := ⟨hostDb,true,some 7001,true,true⟩
def hostConfig (policy : String) : Config := ⟨⟨some 1000,none,[],[]⟩,none,none,policy⟩
def hostPid (id : Nat) : Pid := if positive : 0 < id then ⟨id,by omega⟩ else ⟨1,by decide⟩
def hostAnswer (authenticated : Bool) : Environment := ⟨hostDb,true,authenticated,"failure",true⟩

end Ltsm.DBusAdaptor
