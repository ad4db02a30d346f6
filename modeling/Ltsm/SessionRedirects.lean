import Ltsm.DBusAdaptor
import Ltsm.ChannelTypes
import Ltsm.FuseShares

/-! The redirects of a session: what an attach of a connector starts of them, and what the detach
stops. Owners and modes of the folders and sockets are left out, and so are the texts of the log. -/
namespace Ltsm.SessionRedirects
open Library Channel XvfbSessions DBusAdaptor FuseShares

/- The redirects that have a socket for each connector. -/
inductive Kind
  | printer | scanner | audio | pcsc
  deriving DecidableEq, Repr

/- `redirect:cups` and its siblings of the client's options; the shares are read from their array. -/
structure Redirects where
  cups : Option String := none
  sane : Option String := none
  audio : Option String := none
  pcsc : Option String := none
  fuse : List String := []

def Redirects.option (r : Redirects) : Kind → Option String
  | .printer => r.cups
  | .scanner => r.sane
  | .audio => r.audio
  | .pcsc => r.pcsc

/- The flags of `AllowChannel`. -/
structure Permissions where
  redirectPrinter : Bool := true
  redirectAudio : Bool := true
  redirectScanner : Bool := true
  redirectPcsc : Bool := true
  remoteFilesUse : Bool := true

/- `sessionBus` is whether the session's own bus is known. -/
structure Session where
  user : ShareUser
  sessionBus : Bool
  options : Redirects
  permissions : Permissions
  mode : SessionMode := .started
  connectorId : Int := 0
  fusePoints : List Path := []

/- What the host answers while a listener is started, in the order it is asked. -/
structure Host where
  isDirectory : Bool
  createDirectories : Bool
  isSocket : Bool
  socketAppears : Bool
  connected : Bool

structure Hosts where
  listener : Kind → Host
  fuse : Nat → ShareHost

inductive Effect
  | notify (summary body : String)
  | createDirectories (folder : Path)
  | removeSocket (socket : Path)
  | createListener (kind : Kind) (clientUrl clientMode : String) (socket : Path) (serverMode speed : String)
      (limit : UInt8) (flags : UInt32)
  | connectChannel (kind : Kind) (socket : Path)
  | destroyListener (kind : Kind) (clientUrl : String) (socket : Path)
  | disconnectChannel (kind : Kind) (socket : Path)
  | share (action : FuseShares.Action)
  deriving DecidableEq, Repr

/- What a start function has of its own. -/
structure Job where
  kind : Kind
  title : String
  userOnly : Bool
  permitted : Permissions → Bool
  checksUrl : Bool
  clientMode : ConnectorMode
  serverMode : ConnectorMode
  speed : String
  flags : UInt32
  connects : Bool

/- The printers of all users are in one folder. -/
def socketFolder (u : ShareUser) : Kind → Path
  | .printer => u.runtimeDir ++ ["cups"]
  | .scanner => u.runtimeDir ++ ["sane",u.user]
  | .audio => u.runtimeDir ++ ["audio",u.user]
  | .pcsc => u.runtimeDir ++ ["pcsc",u.user]

def connectorSocket (u : ShareUser) (kind : Kind) (connectorId : Int) : Path :=
  socketFolder u kind ++ [toString connectorId ++ ".sock"]

def startListener (job : Job) (s : Session) (clientUrl : String) (host : Host) : Bool × List Effect :=
  let socket := connectorSocket s.user job.kind s.connectorId
  if job.userOnly = true ∧ s.mode = .login then (false,[])
  else if job.permitted s.permissions = false then
    (false,[.notify "Channel Disabled" ("redirect " ++ job.title ++ " is blocked, contact the administrator")])
  else if job.checksUrl = true ∧ (parseUrl clientUrl).1 = .unknown then (false,[])
  else
    let made := if host.isDirectory then [] else [Effect.createDirectories (socketFolder s.user job.kind)]
    if host.isDirectory = false ∧ host.createDirectories = false then (false,made)
    else
      let prepared := made ++ (if host.isSocket then [.removeSocket socket] else []) ++
        [.createListener job.kind clientUrl (modeString job.clientMode) socket (modeString job.serverMode) job.speed
          5 job.flags]
      if host.socketAppears = false then (false,prepared)
      else if job.connects = false then (true,prepared)
      -- a session without a bus is not asked
      else if s.sessionBus = false then (false,prepared ++ [.destroyListener job.kind clientUrl socket])
      else if host.connected then (true,prepared ++ [.connectChannel job.kind socket])
      else (false,prepared ++ [.connectChannel job.kind socket,.destroyListener job.kind clientUrl socket])

def zlibCompression : UInt32 := 1

def printerJob : Job :=
  { kind := .printer, title := "printer", userOnly := false, permitted := (·.redirectPrinter)
    checksUrl := true, clientMode := .writeOnly, serverMode := .readOnly, speed := "medium"
    flags := zlibCompression, connects := false }

def saneJob : Job :=
  { kind := .scanner, title := "scanner", userOnly := false, permitted := (·.redirectScanner)
    checksUrl := true, clientMode := .readWrite, serverMode := .readWrite, speed := "medium"
    flags := zlibCompression, connects := false }

def audioJob : Job :=
  { kind := .audio, title := "audio", userOnly := true, permitted := (·.redirectAudio)
    checksUrl := false, clientMode := .readWrite, serverMode := .readWrite, speed := "ultra", flags := 0
    connects := true }

def pcscJob : Job :=
  { kind := .pcsc, title := "smartcard", userOnly := true, permitted := (·.redirectPcsc)
    checksUrl := false, clientMode := .readWrite, serverMode := .readWrite, speed := "fast", flags := 0
    connects := true }

def startPrinterListener (s : Session) (clientUrl : String) (host : Host) : Bool × List Effect :=
  startListener printerJob s clientUrl host

def startSaneListener (s : Session) (clientUrl : String) (host : Host) : Bool × List Effect :=
  startListener saneJob s clientUrl host

def startAudioListener (s : Session) (_param : String) (host : Host) : Bool × List Effect :=
  startListener audioJob s (createUrl .audio "") host

def startPcscListener (s : Session) (_param : String) (host : Host) : Bool × List Effect :=
  startListener pcscJob s (createUrl .pcsc "") host

def stopAudioListener (s : Session) (_param : String) : List Effect :=
  if s.sessionBus then [.disconnectChannel .audio (connectorSocket s.user .audio s.connectorId)] else []

def stopPcscListener (s : Session) (_param : String) : List Effect :=
  if s.sessionBus then [.disconnectChannel .pcsc (socketFolder s.user .pcsc ++ ["sock"])] else []

def shareState (s : Session) : FuseShares.State := {shares := s.options.fuse, fusePoints := s.fusePoints}

def shareHost (s : Session) (host : ShareHost) : ShareHost :=
  {host with
    loginMode := s.mode = .login
    remoteFilesUse := s.permissions.remoteFilesUse
    mounted := host.mounted && s.sessionBus}

def whenSet (option : Option String) (start : String → Bool × List Effect) : Bool × List Effect :=
  match option with
  | none => (false,[])
  | some value => start value

/- What has been started is listed by the kind and the socket. -/
def listed (s : Session) (kind : Kind) (started : Bool) : List (Kind × Path) :=
  if started then [(kind,connectorSocket s.user kind s.connectorId)] else []

/- Of startPrinterListener the call is bound to its arguments and not made. -/
def startSessionChannels (s : Session) (hosts : Hosts) : Session × List (Kind × Path) × List Effect :=
  let sane := whenSet s.options.sane fun url => startSaneListener s url (hosts.listener .scanner)
  let audio := whenSet s.options.audio fun param => startAudioListener s param (hosts.listener .audio)
  let pcsc := whenSet s.options.pcsc fun param => startPcscListener s param (hosts.listener .pcsc)
  let fuse := startShares s.user (fun i => shareHost s (hosts.fuse i)) s.options.fuse (shareState s)
  ({s with fusePoints := fuse.fusePoints},
    listed s .scanner sane.1 ++ listed s .audio audio.1 ++ listed s .pcsc pcsc.1,
    sane.2 ++ audio.2 ++ pcsc.2 ++ fuse.log.map .share)

def stopSessionChannels (s : Session) (isDirectory : Path → Bool) : Session × List Effect :=
  let host : StopHost := ⟨s.sessionBus,isDirectory⟩
  let fuse := s.options.fuse.foldl (fun f share => stopFuseListener s.user host share f) (shareState s)
  let audio := match s.options.audio with
    | none => []
    | some param => stopAudioListener s param
  let pcsc := match s.options.pcsc with
    | none => []
    | some param => stopPcscListener s param
  let points := s.fusePoints.foldl (dropPoint host) {shareState s with log := []}
  ({s with fusePoints := []},fuse.log.map .share ++ audio ++ pcsc ++ points.log.map .share)

/- The connector is entered, the channels are started, and it reports that it is connected. -/
def attach (s : Session) (connectorId : Pid) (hosts : Hosts) : Session × List (Kind × Path) × List Effect :=
  startSessionChannels {s with connectorId := connectorId.id, mode := .connected} hosts

/- Of the session of a user; a login screen is shut down. -/
def busConnectorTerminated (s : Session) (isDirectory : Path → Bool) : Session × List Effect :=
  if s.mode = .connected then stopSessionChannels {s with connectorId := 0, mode := .disconnected} isDirectory
  else (s,[])

inductive Action
  | attach (connectorId : Pid) (hosts : Hosts)
  | detach (isDirectory : Path → Bool)

/- `running` is what has been started since the last detach, but for the shares. -/
structure Tracked where
  session : Session
  running : List (Kind × Path) := []

def step (t : Tracked) : Action → Tracked
  | .attach connectorId hosts =>
    let (session,started,_) := attach t.session connectorId hosts
    ⟨session,t.running ++ started⟩
  | .detach isDirectory => ⟨(busConnectorTerminated t.session isDirectory).1,if t.session.mode = .connected then [] else t.running⟩

def effects (t : Tracked) : Action → List Effect
  | .attach connectorId hosts => (attach t.session connectorId hosts).2.2
  | .detach isDirectory => (busConnectorTerminated t.session isDirectory).2

/-! What each attach and detach has to do. -/

def listens (kind : Kind) : Effect → Bool
  | .createListener own _ _ _ _ _ _ _ => own = kind
  | _ => false

def shareListens : Effect → Option Path
  | .share (.createListener socket) => some socket
  | _ => none

def jobOf : Kind → Job
  | .printer => printerJob
  | .scanner => saneJob
  | .audio => audioJob
  | .pcsc => pcscJob

/- Present, permitted, of a known address, and with a folder that is there or can be made. -/
def Wanted (s : Session) (hosts : Hosts) (kind : Kind) : Prop :=
  ∃ value ∈ s.options.option kind, (jobOf kind).permitted s.permissions = true ∧
    ((jobOf kind).checksUrl = true → (parseUrl value).1 ≠ .unknown) ∧
    ((hosts.listener kind).isDirectory = true ∨ (hosts.listener kind).createDirectories = true)

instance (s hosts kind) : Decidable (Wanted s hosts kind) := by unfold Wanted; infer_instance

def wantedShares (permissions : Permissions) : (Nat → ShareHost) → List String → List String
  | _,[] => []
  | host,share :: rest =>
    (if permissions.remoteFilesUse ∧ ((host 0).isDirectory ∨ (host 0).createDirectories) then [share] else []) ++
      wantedShares permissions (fun i => host (i + 1)) rest

/- Each redirect that is wanted gets one listener, and the others none; what is running is told to
stop by the path it was told to start by. -/
def Paired (t : Tracked) (a : Action) : Prop :=
  match a with
  | .attach _ hosts =>
    (∀ kind, (effects t a).countP (listens kind) = if Wanted t.session hosts kind then 1 else 0) ∧
      (effects t a).filterMap shareListens =
        (wantedShares t.session.permissions hosts.fuse t.session.options.fuse).map (fuseSocket t.session.user)
  | .detach _ => t.session.mode = .connected →
    (∀ entry ∈ t.running, Effect.disconnectChannel entry.1 entry.2 ∈ effects t a) ∧
      ∀ point ∈ t.session.fusePoints, Effect.share (.umountPoint point) ∈ effects t a

/- No printer is wanted, and nothing but shares runs when a connector leaves. -/
def Proper (t : Tracked) : Action → Prop
  | .attach _ hosts => ¬Wanted t.session hosts .printer
  | .detach _ => t.session.mode = .connected → t.running = []

section
variable {s : Session} {job : Job} {value : String} {host : Host}

/- What asks for no listener. -/
def Silent (e : Effect) : Prop := (∀ kind, listens kind e = false) ∧ shareListens e = none

theorem silentNone {effects : List Effect} (silent : ∀ e ∈ effects, Silent e) (kind : Kind) :
    effects.countP (listens kind) = 0 ∧ effects.filterMap shareListens = [] :=
  ⟨List.countP_eq_zero.mpr fun e inside => by rw [(silent e inside).1 kind]; exact Bool.false_ne_true,
    List.filterMap_eq_nil_iff.mpr fun e inside => (silent e inside).2⟩

/- The checks that a start function makes before it asks for its listener. -/
def Allowed (job : Job) (s : Session) (url : String) (host : Host) : Prop :=
  job.permitted s.permissions = true ∧ (job.checksUrl = true → (parseUrl url).1 ≠ .unknown) ∧
    (host.isDirectory = true ∨ host.createDirectories = true)

/- It asks for one listener, among effects that ask for none. -/
def AsksOnce (job : Job) (s : Session) (url : String) (effects : List Effect) : Prop :=
  ∃ before after, effects = before ++ [.createListener job.kind url (modeString job.clientMode)
      (connectorSocket s.user job.kind s.connectorId) (modeString job.serverMode) job.speed 5 job.flags] ++ after ∧
    (∀ e ∈ before, Silent e) ∧ ∀ e ∈ after, Silent e

theorem silentMade (path : Path) (there : Bool) :
    ∀ e ∈ (if there then [] else [Effect.createDirectories path]), Silent e := by
  cases there with
  | true => exact List.forall_mem_nil _
  | false => exact List.forall_mem_singleton.mpr ⟨fun _ => rfl,rfl⟩

theorem silentRemoved (path : Path) (there : Bool) :
    ∀ e ∈ (if there then [Effect.removeSocket path] else []), Silent e := by
  cases there with
  | true => exact List.forall_mem_singleton.mpr ⟨fun _ => rfl,rfl⟩
  | false => exact List.forall_mem_nil _

theorem startCases (url : String) (user : s.mode ≠ .login) :
    ¬Allowed job s url host ∧ (∀ e ∈ (startListener job s url host).2, Silent e) ∨
      Allowed job s url host ∧ AsksOnce job s url (startListener job s url host).2 := by
  unfold startListener
  dsimp only
  rw [if_neg fun both => user both.2]
  by_cases refused : job.permitted s.permissions = false
  · rw [if_pos refused]
    refine .inl ⟨fun all => Bool.false_ne_true (refused.symm.trans all.1),?_⟩
    exact List.forall_mem_singleton.mpr ⟨fun _ => rfl,rfl⟩
  rw [if_neg refused]
  by_cases strange : job.checksUrl = true ∧ (parseUrl url).1 = .unknown
  · rw [if_pos strange]
    exact .inl ⟨fun all => all.2.1 strange.1 strange.2,List.forall_mem_nil _⟩
  rw [if_neg strange]
  by_cases unmade : host.isDirectory = false ∧ host.createDirectories = false
  · rw [if_pos unmade]
    refine .inl ⟨fun all => ?_,silentMade _ _⟩
    rcases all.2.2 with there | made
    · exact Bool.false_ne_true (unmade.1.symm.trans there)
    · exact Bool.false_ne_true (unmade.2.symm.trans made)
  rw [if_neg unmade]
  have allowed : Allowed job s url host := by
    refine ⟨Bool.not_eq_false _ ▸ refused,fun checks unknown => strange ⟨checks,unknown⟩,?_⟩
    by_contra none
    rw [not_or,Bool.not_eq_true,Bool.not_eq_true] at none
    exact unmade none
  refine .inr ⟨allowed,?_⟩
  -- up to here they are alike; what follows the listener is a connection or the end of it
  have shape (after : List Effect) (silent : ∀ e ∈ after, Silent e) : AsksOnce job s url _ :=
    ⟨_,after,rfl,List.forall_mem_append.mpr ⟨silentMade (socketFolder s.user job.kind) host.isDirectory,
      silentRemoved (connectorSocket s.user job.kind s.connectorId) host.isSocket⟩,silent⟩
  have alone := shape [] (List.forall_mem_nil _)
  rw [List.append_nil] at alone
  by_cases hidden : host.socketAppears = false
  · rw [if_pos hidden]
    exact alone
  rw [if_neg hidden]
  by_cases apart : job.connects = false
  · rw [if_pos apart]
    exact alone
  rw [if_neg apart]
  by_cases unreached : s.sessionBus = false
  · rw [if_pos unreached]
    exact shape _ (List.forall_mem_singleton.mpr ⟨fun _ => rfl,rfl⟩)
  rw [if_neg unreached]
  by_cases connected : host.connected = true
  · rw [if_pos connected]
    exact shape _ (List.forall_mem_singleton.mpr ⟨fun _ => rfl,rfl⟩)
  · rw [if_neg connected]
    exact shape _ (List.forall_mem_cons.mpr ⟨⟨fun _ => rfl,rfl⟩,List.forall_mem_singleton.mpr ⟨fun _ => rfl,rfl⟩⟩)

/- One listener is asked for, or the start is turned away before that. -/
theorem startListens (url : String) (user : s.mode ≠ .login) (kind : Kind) :
    ((startListener job s url host).2.countP (listens kind) =
      if job.kind = kind ∧ job.permitted s.permissions = true ∧ (job.checksUrl = true → (parseUrl url).1 ≠ .unknown) ∧
        (host.isDirectory = true ∨ host.createDirectories = true) then 1 else 0) ∧
    (startListener job s url host).2.filterMap shareListens = [] := by
  rcases startCases (s := s) url user with ⟨turned,silent⟩ | ⟨allowed,before,after,same,quiet,behind⟩
  · rw [if_neg fun all => turned all.2]
    exact silentNone silent kind
  · obtain ⟨first,front⟩ := silentNone quiet kind
    obtain ⟨last,back⟩ := silentNone behind kind
    rw [same]
    constructor
    · rw [List.countP_append,List.countP_append,first,last,List.countP_singleton,Nat.zero_add,Nat.add_zero]
      simp only [listens,decide_eq_true_eq]
      exact if_congr (and_iff_left allowed).symm rfl rfl
    · simp only [List.filterMap_append,front,back,List.nil_append,List.append_nil]
      rfl

theorem jobKind (kind : Kind) : (jobOf kind).kind = kind := by
  cases kind <;> rfl

/- What a kind asks for, by its own start function; only what is checked is the client's address. -/
theorem kindListens (user : s.mode ≠ .login) (hosts : Hosts) (own kind : Kind) (url : String → String)
    (client : (jobOf own).checksUrl = true → ∀ value, url value = value) :
    let result := whenSet (s.options.option own) fun value => startListener (jobOf own) s (url value) (hosts.listener own)
    (result.2.countP (listens kind) = if own = kind ∧ Wanted s hosts own then 1 else 0) ∧
      result.2.filterMap shareListens = [] := by
  dsimp only [whenSet]
  cases option : s.options.option own with
  | none =>
    have absent : ¬Wanted s hosts own := fun ⟨value,present,_⟩ => by
      rw [option] at present
      exact absurd present (Option.not_mem_none value)
    rw [if_neg fun both => absent both.2]
    exact ⟨rfl,rfl⟩
  | some value =>
    obtain ⟨count,shares⟩ := @startListens s (jobOf own) (hosts.listener own) (url value) user kind
    refine ⟨count.trans ?_,shares⟩
    have wanted : Wanted s hosts own ↔ (jobOf own).permitted s.permissions = true ∧
        ((jobOf own).checksUrl = true → (parseUrl (url value)).1 ≠ .unknown) ∧
          ((hosts.listener own).isDirectory = true ∨ (hosts.listener own).createDirectories = true) := by
      unfold Wanted
      rw [option]
      simp only [Option.mem_def,Option.some.injEq,exists_eq_left']
      refine and_congr_right fun _ => and_congr_left fun _ => forall_congr' fun checks => ?_
      rw [client checks]
    simp only [jobKind,wanted]

/- The call that is not made would have asked for the printer's listener. -/
theorem printerListens (user : s.mode ≠ .login) (hosts : Hosts) :
    (whenSet s.options.cups fun url => startPrinterListener s url (hosts.listener .printer)).2.countP (listens .printer) =
      if Wanted s hosts .printer then 1 else 0 := by
  have count := (kindListens user hosts .printer .printer id fun _ _ => rfl).1
  simp only [true_and] at count
  exact count

/-! The shares. -/

def socketOf : FuseShares.Action → Option Path
  | .createListener socket => some socket
  | _ => none

theorem shareLog (log : List FuseShares.Action) (kind : Kind) :
    (log.map Effect.share).countP (listens kind) = 0 ∧ (log.map Effect.share).filterMap shareListens = log.filterMap socketOf := by
  constructor
  · refine List.countP_eq_zero.mpr fun e inside => ?_
    obtain ⟨a,_,rfl⟩ := List.mem_map.mp inside
    exact Bool.false_ne_true
  · rw [List.filterMap_map]
    refine List.filterMap_congr fun a _ => ?_
    cases a <;> rfl

theorem prepareSockets (u : ShareUser) (host : ShareHost) (share : String) (f : FuseShares.State) :
    (prepareShare u host share f).log.filterMap socketOf = f.log.filterMap socketOf ++ [fuseSocket u share] := by
  rw [prepareShare,State.act,List.filterMap_append]
  cases host.isSocket <;> rfl

theorem mountSockets (u : ShareUser) (host : ShareHost) (share : String) (f : FuseShares.State) :
    (mountShare u host share f).2.log.filterMap socketOf = f.log.filterMap socketOf := by
  cases mounted : host.mounted <;> simp [mountShare,State.act,socketOf,mounted]

theorem shareSockets (user : s.mode ≠ .login) (host : ShareHost) (share : String) (f : FuseShares.State) :
    (startFuseListener s.user (shareHost s host) share f).2.log.filterMap socketOf = f.log.filterMap socketOf ++
      if s.permissions.remoteFilesUse ∧ (host.isDirectory ∨ host.createDirectories) then [fuseSocket s.user share]
      else [] := by
  have prepared (g : FuseShares.State) : (if (shareHost s host).socketAppears then
      mountShare s.user (shareHost s host) share (prepareShare s.user (shareHost s host) share g)
      else (false,prepareShare s.user (shareHost s host) share g)).2.log.filterMap socketOf =
        g.log.filterMap socketOf ++ [fuseSocket s.user share] := by
    split
    · rw [mountSockets,prepareSockets]
    · exact prepareSockets s.user _ share g
  have made (g : FuseShares.State) : (g.act [.createDirectories (fusePointFolder s.user share)]).log.filterMap socketOf =
      g.log.filterMap socketOf := by simp [State.act,socketOf]
  unfold startFuseListener
  rw [if_neg (show ¬(shareHost s host).loginMode = true by simp [shareHost,user])]
  split
  · rename_i refused
    have refused : s.permissions.remoteFilesUse = false := by simpa [shareHost] using refused
    simp [refused]
  rename_i permitted
  have permitted : s.permissions.remoteFilesUse = true := by simpa [shareHost] using permitted
  dsimp only
  split
  · rename_i failed
    have failed : host.isDirectory = false ∧ host.createDirectories = false := by simpa [shareHost] using failed
    simp [shareHost,failed,made]
  · rename_i there
    have wanted : host.isDirectory = true ∨ host.createDirectories = true := by
      cases here : host.isDirectory with
      | true => exact .inl rfl
      | false => exact .inr (by simpa [shareHost,here] using there)
    rw [prepared,if_pos (show _ ∧ _ from ⟨permitted,wanted⟩)]
    split
    · rfl
    · rw [made]

theorem sharesSockets (user : s.mode ≠ .login) (host : Nat → ShareHost) (shares : List String) (f : FuseShares.State) :
    (startShares s.user (fun i => shareHost s (host i)) shares f).log.filterMap socketOf =
      f.log.filterMap socketOf ++ (wantedShares s.permissions host shares).map (fuseSocket s.user) := by
  induction shares generalizing host f with
  | nil => simp [startShares,wantedShares]
  | cons share rest ih =>
    rw [startShares,ih (fun i => host (i + 1)),shareSockets user,wantedShares,List.map_append,List.append_assoc]
    split <;> rfl

/- The points on record were mounted over the session's bus, each for one of the shares. -/
def Recorded (s : Session) (points : List Path) : Prop :=
  ∀ point ∈ points, s.sessionBus = true ∧ ∃ share ∈ s.options.fuse, point = fusePointFolder s.user share

theorem sharePoints (host : ShareHost) {share : String} (own : share ∈ s.options.fuse) {f : FuseShares.State}
    (recorded : Recorded s f.fusePoints) :
    Recorded s (startFuseListener s.user (shareHost s host) share f).2.fusePoints := by
  have mount {g : FuseShares.State} (same : g.fusePoints = f.fusePoints) :
      Recorded s (mountShare s.user (shareHost s host) share g).2.fusePoints := by
    unfold mountShare
    dsimp only
    split
    · rename_i mounted
      intro point inside
      rcases List.mem_cons.mp inside with rfl | before
      · exact ⟨(Bool.and_eq_true_iff.mp mounted).2,share,own,rfl⟩
      · exact recorded point (same ▸ before)
    · exact same ▸ recorded
  unfold startFuseListener
  split
  · exact recorded
  split
  · exact recorded
  dsimp only
  split
  · split <;> exact recorded
  split
  · refine mount ?_
    split <;> rfl
  · split <;> exact recorded

theorem sharesPoints (host : Nat → ShareHost) {shares : List String} (own : shares ⊆ s.options.fuse)
    {f : FuseShares.State} (recorded : Recorded s f.fusePoints) :
    Recorded s (startShares s.user (fun i => shareHost s (host i)) shares f).fusePoints := by
  induction shares generalizing host f with
  | nil => exact recorded
  | cons share rest ih =>
    exact ih (fun i => host (i + 1)) (fun _ inside => own (List.mem_cons_of_mem _ inside))
      (sharePoints (host 0) (own List.mem_cons_self) recorded)

/-! An attach. -/

theorem attachListens (connectorId : Pid) (hosts : Hosts) (kind : Kind) :
    ((attach s connectorId hosts).2.2.countP (listens kind) = if kind ≠ .printer ∧ Wanted s hosts kind then 1 else 0) ∧
      (attach s connectorId hosts).2.2.filterMap shareListens =
        (wantedShares s.permissions hosts.fuse s.options.fuse).map (fuseSocket s.user) := by
  let here : Session := {s with connectorId := connectorId.id, mode := .connected}
  have user : here.mode ≠ .login := fun same => by cases same
  obtain ⟨sane,noSane⟩ := kindListens user hosts .scanner kind id fun _ _ => rfl
  obtain ⟨audio,noAudio⟩ := kindListens user hosts .audio kind (fun _ => createUrl .audio "") fun checks => by cases checks
  obtain ⟨pcsc,noPcsc⟩ := kindListens user hosts .pcsc kind (fun _ => createUrl .pcsc "") fun checks => by cases checks
  obtain ⟨fuse,sockets⟩ := shareLog (startShares here.user (fun i => shareHost here (hosts.fuse i)) here.options.fuse
    (shareState here)).log kind
  constructor
  · change (_ ++ _ ++ _ ++ _ : List Effect).countP (listens kind) = _
    rw [List.countP_append,List.countP_append,List.countP_append,fuse]
    refine (congrArg (· + 0) (congrArg₂ (· + ·) (congrArg₂ (· + ·) sane audio) pcsc)).trans ?_
    have same (own : Kind) : Wanted here hosts own ↔ Wanted s hosts own := Iff.rfl
    cases kind <;> simp [same]
  · change (_ ++ _ ++ _ ++ _ : List Effect).filterMap shareListens = _
    rw [List.filterMap_append,List.filterMap_append,List.filterMap_append,sockets,sharesSockets user]
    refine congrArg₂ (· ++ ·) (congrArg₂ (· ++ ·) (congrArg₂ (· ++ ·) noSane noAudio) noPcsc) ?_
    rfl

theorem attachStarted (connectorId : Pid) (hosts : Hosts) :
    ∀ entry ∈ (attach s connectorId hosts).2.1, entry.2 = connectorSocket s.user entry.1 connectorId.id := by
  have own (kind : Kind) (started : Bool) :
      ∀ entry ∈ listed {s with connectorId := connectorId.id, mode := .connected} kind started,
        entry.2 = connectorSocket s.user entry.1 connectorId.id := fun entry inside => by
    unfold listed at inside
    split at inside
    · rw [List.mem_singleton.mp inside]
    · exact absurd inside List.not_mem_nil
  intro entry inside
  rcases List.mem_append.mp inside with front | pcsc
  · rcases List.mem_append.mp front with sane | audio
    · exact own _ _ entry sane
    · exact own _ _ entry audio
  · exact own _ _ entry pcsc

/-! A detach. -/

theorem decimalInjective {a b : Nat} (same : toString (a : Int) = toString (b : Int)) : a = b := by
  have digits : Nat.toDigits 10 a = Nat.toDigits 10 b := by
    rw [← Nat.toList_repr,← Nat.toList_repr]
    exact congrArg String.toList same
  rw [← Nat.ofDigitChars_ten_toDigits (n := a),digits,Nat.ofDigitChars_ten_toDigits]

/- What is stopped is not what was started for a connector. -/
theorem audioElsewhere (u : ShareUser) (connectorId : Pid) :
    connectorSocket u .audio connectorId.id ≠ connectorSocket u .audio 0 := by
  intro same
  have name := List.append_cancel_left same
  have text : toString connectorId.id = toString (0 : Int) := (String.append_left_inj ".sock").mp (List.cons.inj name).1
  obtain ⟨n,id⟩ := Int.eq_ofNat_of_zero_le connectorId.positive.le
  have zero : n = 0 := decimalInjective (b := 0) (id ▸ text)
  have positive := connectorId.positive
  omega

theorem pcscElsewhere (u : ShareUser) (connectorId : Int) :
    connectorSocket u .pcsc connectorId ≠ socketFolder u .pcsc ++ ["sock"] := by
  intro same
  have name := congrArg String.length (List.cons.inj (List.append_cancel_left same)).1
  rw [String.length_append] at name
  have suffix : (".sock" : String).length = 5 := rfl
  have word : ("sock" : String).length = 4 := rfl
  omega

/- The two disconnects that a detach knows. -/
theorem disconnects {isDirectory : Path → Bool} {kind : Kind} {path : Path}
    (inside : Effect.disconnectChannel kind path ∈ (stopSessionChannels s isDirectory).2) :
    (kind,path) = (.audio,connectorSocket s.user .audio s.connectorId) ∨
      (kind,path) = (.pcsc,socketFolder s.user .pcsc ++ ["sock"]) := by
  have shares {log : List FuseShares.Action} (inside : Effect.disconnectChannel kind path ∈ log.map Effect.share) : False := by
    obtain ⟨_,_,same⟩ := List.mem_map.mp inside
    cases same
  dsimp only [stopSessionChannels] at inside
  rcases List.mem_append.mp inside with front | points
  · rcases List.mem_append.mp front with front | pcsc
    · rcases List.mem_append.mp front with fuse | audio
      · exact (shares fuse).elim
      · split at audio
        · exact absurd audio List.not_mem_nil
        unfold stopAudioListener at audio
        split at audio
        · cases List.mem_singleton.mp audio
          exact .inl rfl
        · exact absurd audio List.not_mem_nil
    · split at pcsc
      · exact absurd pcsc List.not_mem_nil
      unfold stopPcscListener at pcsc
      split at pcsc
      · cases List.mem_singleton.mp pcsc
        exact .inr rfl
      · exact absurd pcsc List.not_mem_nil
  · exact (shares points).elim

theorem umounts {host : StopHost} (bus : host.sessionBus = true) {share : String} {shares : List String}
    (own : share ∈ shares) (f : FuseShares.State) :
    FuseShares.Action.umountPoint (fusePointFolder s.user share) ∈
      (shares.foldl (fun f share => stopFuseListener s.user host share f) f).log := by
  have stop (name : String) (f : FuseShares.State) :
      (stopFuseListener s.user host name f).log = f.log ++ [.umountPoint (fusePointFolder s.user name)] := by
    unfold stopFuseListener
    rw [if_pos bus]
    rfl
  have keeps {a : FuseShares.Action} (shares : List String) (f : FuseShares.State) (inside : a ∈ f.log) :
      a ∈ (shares.foldl (fun f share => stopFuseListener s.user host share f) f).log := by
    induction shares generalizing f with
    | nil => exact inside
    | cons name rest ih =>
      refine ih _ ?_
      rw [stop]
      exact List.mem_append_left _ inside
  induction shares generalizing f with
  | nil => exact absurd own List.not_mem_nil
  | cons name rest ih =>
    rcases List.mem_cons.mp own with rfl | later
    · refine keeps rest _ ?_
      rw [stop]
      exact List.mem_append_right _ (List.mem_singleton.mpr rfl)
    · exact ih later _

/-! The whole session. -/

/- Where every running redirect was started, and what is on record of the shares. -/
structure Kept (u : ShareUser) (t : Tracked) : Prop where
  user : t.session.user = u
  running : ∀ entry ∈ t.running, ∃ connectorId : Pid, entry.2 = connectorSocket u entry.1 connectorId.id
  recorded : Recorded t.session t.session.fusePoints

theorem stepKept {u : ShareUser} {t : Tracked} (a : Action) (kept : Kept u t) : Kept u (step t a) := by
  cases a with
  | attach connectorId hosts =>
    refine ⟨kept.user,fun entry inside => ?_,?_⟩
    · rcases List.mem_append.mp inside with before | started
      · exact kept.running entry before
      · exact ⟨connectorId,kept.user ▸ attachStarted connectorId hosts entry started⟩
    · exact sharesPoints (s := {t.session with connectorId := connectorId.id, mode := .connected}) hosts.fuse
        (fun _ inside => inside) kept.recorded
  | detach isDirectory =>
    unfold step busConnectorTerminated
    dsimp only
    by_cases online : t.session.mode = .connected
    · rw [if_pos online,if_pos online]
      refine ⟨kept.user,fun entry inside => absurd inside List.not_mem_nil,?_⟩
      exact fun point inside => absurd inside List.not_mem_nil
    · rw [if_neg online,if_neg online]
      exact kept

theorem pairedProper {u : ShareUser} {t : Tracked} (a : Action) (kept : Kept u t) : Paired t a ↔ Proper t a := by
  cases a with
  | attach connectorId hosts =>
    constructor
    · intro paired wanted
      have none := (attachListens (s := t.session) connectorId hosts .printer).1
      have one := paired.1 .printer
      rw [if_pos wanted] at one
      rw [if_neg fun both => both.1 rfl] at none
      exact absurd (none.symm.trans one) Nat.zero_ne_one
    · intro proper
      refine ⟨fun kind => ?_,(attachListens connectorId hosts .printer).2⟩
      refine (attachListens connectorId hosts kind).1.trans ?_
      have same : (kind ≠ .printer ∧ Wanted t.session hosts kind) ↔ Wanted t.session hosts kind := by
        refine and_iff_right_of_imp fun wanted equal => ?_
        rw [equal] at wanted
        exact proper wanted
      simp only [same]
  | detach isDirectory =>
    refine forall_congr' fun online => ?_
    dsimp only [effects,busConnectorTerminated]
    rw [if_pos online]
    constructor
    · intro paired
      refine List.eq_nil_iff_forall_not_mem.mpr fun entry inside => ?_
      obtain ⟨connectorId,path⟩ := kept.running entry inside
      rcases disconnects (paired.1 entry inside) with audio | pcsc
      · obtain ⟨kind,same⟩ := Prod.mk.inj audio
        rw [kind] at path
        exact audioElsewhere u connectorId (path.symm.trans (kept.user ▸ same))
      · obtain ⟨kind,same⟩ := Prod.mk.inj pcsc
        rw [kind] at path
        exact pcscElsewhere u connectorId.id (path.symm.trans (kept.user ▸ same))
    · intro idle
      refine ⟨fun entry inside => absurd (idle ▸ inside) List.not_mem_nil,fun point inside => ?_⟩
      obtain ⟨bus,share,own,rfl⟩ := kept.recorded point inside
      refine List.mem_append_left _ (List.mem_append_left _ (List.mem_append_left _ ?_))
      exact List.mem_map_of_mem (@umounts t.session ⟨t.session.sessionBus,isDirectory⟩ bus share _ own _)

end

/- For any options and permissions, and any order of attaches and detaches. -/
theorem pairedIff (u : ShareUser) (sessionBus : Bool) (options : Redirects) (permissions : Permissions)
    (actions : List Action) :
    Meets step Paired ⟨{user := u, sessionBus, options, permissions},[]⟩ actions ↔
      Meets step Proper ⟨{user := u, sessionBus, options, permissions},[]⟩ actions :=
  meetsCongr (P := Kept u) (fun _ a _ kept => stepKept a kept) (fun _ a kept => pairedProper a kept)
    ⟨rfl,fun _ inside => absurd inside List.not_mem_nil,fun _ inside => absurd inside List.not_mem_nil⟩

/- A session with sound, whose connector comes and goes on a host where everything succeeds. -/
def soundSession : Session := {user := sampleUser, sessionBus := true, options := {audio := some ""}, permissions := {}}

def soundRun : List Action := [.attach (hostPid 7001) ⟨fun _ => ⟨true,false,false,true,true⟩,readyHost⟩,.detach fun _ => true]

theorem soundLeftRunning : ¬∀ session actions, Meets step Paired ⟨session,[]⟩ actions := by
  intro claim
  obtain ⟨_,detached,_⟩ := claim soundSession soundRun
  have stopped := (detached (by decide +kernel)).1 (.audio,connectorSocket sampleUser .audio 7001) (by decide +kernel)
  exact absurd stopped (by decide +kernel)

end Ltsm.SessionRedirects
