import Ltsm.LoginMoves

/-! The connectors. Each one is a process that shows a login screen and hears the
signals of the service, all in the order they are sent. On LoginSuccess for its
display it asks for the session of the user, moves over to its display and reports;
until then it takes no other signal. -/
namespace Ltsm.ConnectorLogin
open Library XvfbSessions DBusAdaptor SessionMoves LoginMoves

inductive Phase where
  | listening
  | loginSuccess (userName : String)
  | started (userName : String) (newDisplay : Int)
  | shown (userName : String)
  | connected
  | failed
  | ended
  deriving DecidableEq, Repr

structure Connector where
  pid : Pid
  displayNum : Int
  remoteAddr : String
  connectorType : String
  received : Nat
  phase : Phase
  deriving DecidableEq, Repr

structure System where
  service : Service
  connectors : List Connector

def systemStart : System := ⟨start,[]⟩

inductive SystemAction where
  | service (a : Action)
  | connect (pid : Pid) (launch : Launch) (xcb : Bool) (remoteAddr connType : String)
  | receive (index : Nat)
  | startUserSession (index : Nat) (launch : Launch) (socket : Bool)
  | showDisplay (index : Nat) (xcb : Bool)
  | connected (index : Nat)
  | terminate (index : Nat)

/- The helper of a login screen and its connector try logins for their own display;
the other requests of a connector are actions of it. -/
def onLoginScreen (s : Service) (display : Int) : Bool :=
  (findDisplaySession s.pool display).any fun e => .loginScreen e.1 ∈ s.history

def permitted (s : Service) : Action → Bool
  | .setAuthenticateToken display _ | .setAuthenticateLoginPass display _ _ => onLoginScreen s display
  | a => background a

def System.setConnector (index : Nat) (f : Connector → Connector) (s : System) : System :=
  {s with connectors := s.connectors.modify index f}

/- serverHandshakeVersionEvent. A process identifier stays with its connector. -/
def connect (c : Config) (pid : Pid) (launch : Launch) (xcb : Bool) (remoteAddr connType : String)
    (s : System) : System :=
  if s.connectors.any fun k => k.pid = pid then s
  else
    match busStartLoginSession c launch pid.id remoteAddr connType s.service with
    | (screen,service) =>
      if 0 < screen ∧ xcb then
        ⟨service,s.connectors ++ [⟨pid,screen,remoteAddr,connType,service.signals.length,.listening⟩]⟩
      else {s with service}

def Phase.listens : Phase → Bool
  | .listening | .connected => true
  | _ => false

def onSignal (signal : Signal) (k : Connector) : Connector :=
  match signal with
  | .loginSuccess display userName _ =>
    if display ≠ k.displayNum then k else {k with phase := .loginSuccess userName}
  | _ => k

def receive (index : Nat) (s : System) : System :=
  match s.connectors[index]? with
  | none => s
  | some k =>
    match s.service.signals[k.received]? with
    | none => s
    | some signal =>
      if k.phase.listens then
        s.setConnector index fun k => onSignal signal {k with received := k.received + 1}
      else s

/-! onLoginSuccess, from one request to the next. -/

def startUserSession (c : Config) (index : Nat) (launch : Launch) (socket : Bool) (s : System) : System :=
  match s.connectors[index]? with
  | none => s
  | some k =>
    match k.phase with
    | .loginSuccess userName =>
      match busStartUserSession c launch socket k.displayNum k.pid.id userName k.remoteAddr k.connectorType
          s.service with
      | (newDisplay,service) =>
        {s with service}.setConnector index fun k =>
          {k with phase := if newDisplay < 0 then .failed else .started userName newDisplay}
    | _ => s

def showDisplay (index : Nat) (xcb : Bool) (s : System) : System :=
  match s.connectors[index]? with
  | none => s
  | some k =>
    match k.phase with
    | .started userName newDisplay =>
      if newDisplay ≠ k.displayNum then
        if xcb then
          {s with service := busShutdownDisplay k.displayNum s.service}.setConnector index fun k =>
            {k with displayNum := newDisplay, phase := .shown userName}
        else s.setConnector index fun k => {k with phase := .failed}
      else s.setConnector index fun k => {k with phase := .shown userName}
    | _ => s

def reportConnected (index : Nat) (s : System) : System :=
  match s.connectors[index]? with
  | none => s
  | some k =>
    match k.phase with
    | .shown _ =>
      {s with service := busConnectorConnected k.displayNum k.pid.id s.service}.setConnector index fun k =>
        {k with phase := .connected}
    | _ => s

/- The destructor of the connector, which may run at any time. -/
def terminate (index : Nat) (s : System) : System :=
  match s.connectors[index]? with
  | none => s
  | some k =>
    if k.phase = .ended then s
    else
      {s with service := busConnectorTerminated k.displayNum k.pid.id s.service}.setConnector index fun k =>
        {k with phase := .ended}

def systemStep (c : Config) (s : System) : SystemAction → System
  | .service a => if permitted s.service a then {s with service := step c s.service a} else s
  | .connect pid launch xcb remoteAddr connType => connect c pid launch xcb remoteAddr connType s
  | .receive index => receive index s
  | .startUserSession index launch socket => startUserSession c index launch socket s
  | .showDisplay index xcb => showDisplay index xcb s
  | .connected index => reportConnected index s
  | .terminate index => terminate index s

section
variable {s : System} {c : Config} {k : Connector} {index : Nat}

theorem memSetConnector {f : Connector → Connector} {k' : Connector}
    (inside : k' ∈ (s.setConnector index f).connectors) (found : s.connectors[index]? = some k) :
    k' ∈ s.connectors ∨ k' = f k := by
  obtain ⟨j,there⟩ := List.mem_iff_getElem?.mp inside
  unfold System.setConnector at there
  rw [List.getElem?_modify] at there
  obtain ⟨old,before,image⟩ := Option.map_eq_some_iff.mp there
  split at image
  · rename_i same
    subst same
    cases Option.some.inj (found.symm.trans before)
    exact .inr image.symm
  · exact .inl (image ▸ List.mem_of_getElem? before)

/- The service only ever takes steps of its own, and keeps the policies of its sessions. -/
theorem systemService (a : SystemAction) : (systemStep c s a).service = s.service ∨
    ∃ b, (∀ display policy, b ≠ .setSessionPolicy display policy) ∧
      (systemStep c s a).service = step c s.service b := by
  cases a with
  | service a =>
    simp only [systemStep]
    split
    · rename_i allowed
      refine .inr ⟨a,?_,rfl⟩
      intro display policy same
      rw [same] at allowed
      contradiction
    · exact .inl rfl
  | connect pid launch xcb remoteAddr connType =>
    simp only [systemStep]
    unfold connect
    split
    · exact .inl rfl
    refine .inr ⟨.startLoginSession launch pid remoteAddr connType,by simp,?_⟩
    dsimp only
    split <;> rfl
  | receive index =>
    simp only [systemStep]
    unfold receive
    split
    · exact .inl rfl
    split
    · exact .inl rfl
    split <;> exact .inl rfl
  | startUserSession index launch socket =>
    simp only [systemStep]
    unfold startUserSession
    split
    · exact .inl rfl
    rename_i k _
    split
    · rename_i userName _
      exact .inr ⟨.startUserSession launch socket k.displayNum k.pid userName k.remoteAddr k.connectorType,
        by simp,rfl⟩
    · exact .inl rfl
  | showDisplay index xcb =>
    simp only [systemStep]
    unfold showDisplay
    split
    · exact .inl rfl
    rename_i k _
    split
    · split
      · split
        · exact .inr ⟨.shutdownDisplay k.displayNum,by simp,rfl⟩
        · exact .inl rfl
      · exact .inl rfl
    · exact .inl rfl
  | connected index =>
    simp only [systemStep]
    unfold reportConnected
    split
    · exact .inl rfl
    rename_i k _
    split
    · exact .inr ⟨.connectorConnected k.displayNum k.pid,by simp,rfl⟩
    · exact .inl rfl
  | terminate index =>
    simp only [systemStep]
    unfold terminate
    split
    · exact .inl rfl
    rename_i k _
    split
    · exact .inl rfl
    · exact .inr ⟨.connectorTerminated k.displayNum k.pid,by simp,rfl⟩

theorem systemWellformed (s : System) (a : SystemAction) (h : Wellformed s.service) :
    Wellformed (systemStep c s a).service := by
  rcases systemService (c := c) (s := s) a with same | ⟨b,_,same⟩
  · rw [same]
    exact h
  · rw [same]
    exact stepWellformed s.service b h

end
end Ltsm.ConnectorLogin
