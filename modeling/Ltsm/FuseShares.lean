import Ltsm.Library.PathTree
import Ltsm.Library.Run

/-! The shared folders of a session. The client names them in `redirect:fuse`; the
service, running as root, prepares a mount folder and a socket for each below the
user's share folder, and takes the mount points away when the session goes. Zero
bytes are dropped when the option is unescaped, so a name is a whole C string. -/
namespace Ltsm.FuseShares
open Library

/- `fuseRuntimeFmt` for this user, with the owners its folders get. -/
structure ShareUser where
  runtimeDir : Path
  user : String
  uid : Nat
  gid : Nat
  connUid : Nat
  deriving DecidableEq, Repr

/- What the host answers while one share is started, in the order it is asked. -/
structure ShareHost where
  loginMode : Bool
  remoteFilesUse : Bool
  isDirectory : Bool
  createDirectories : Bool
  isSocket : Bool
  socketAppears : Bool
  mounted : Bool
  deriving DecidableEq, Repr

structure StopHost where
  sessionBus : Bool
  isDirectory : Path → Bool

inductive Action
  | createDirectories (dir : Path)
  | setUserFolderOwner (dir : Path) (uid gid mode : Nat)
  | setPointOwner (dir : Path) (uid gid mode : Nat)
  | removeSocket (socket : Path)
  | createListener (socket : Path)
  | setSocketOwner (socket : Path) (uid gid mode : Nat)
  | mountPoint (localPoint : Path) (remotePoint : String) (socket : Path)
  | destroyListener (socket : Path)
  | umountPoint (localPoint : Path)
  | umount (point : Path)
  | remove (point : Path)
  deriving DecidableEq, Repr

/- The directory an action touches for a share. The user's folder, which all
shares live in, is set up along with each and belongs to none. -/
def Action.shareDirectory : Action → Option Path
  | .createDirectories dir | .setPointOwner dir _ _ _ | .mountPoint dir _ _ | .umountPoint dir
  | .umount dir | .remove dir => some dir
  | .setUserFolderOwner _ _ _ _ | .removeSocket _ | .createListener _ | .setSocketOwner _ _ _ _
  | .destroyListener _ => none

structure State where
  shares : List String := []
  fusePoints : List Path := []
  log : List Action := []
  deriving DecidableEq, Repr

def State.act (s : State) (actions : List Action) : State := {s with log := s.log ++ actions}

/- std::filesystem::path::filename: what follows the last separator. -/
def filename (path : String) : String :=
  String.ofList (path.toList.reverse.takeWhile (· ≠ '/')).reverse

def userShareFolder (u : ShareUser) : Path := u.runtimeDir ++ ["fuse",u.user]

def fusePointFolder (u : ShareUser) (remotePoint : String) : Path :=
  userShareFolder u ++ [filename remotePoint]

def fuseSocket (u : ShareUser) (remotePoint : String) : Path :=
  userShareFolder u ++ [filename remotePoint ++ ".sock"]

def ShareHost.admits (host : ShareHost) : Bool := !host.loginMode && host.remoteFilesUse

/- The owners and the listener, once the mount folder is there. -/
def prepareShare (u : ShareUser) (host : ShareHost) (remotePoint : String) (s : State) : State :=
  s.act ([.setUserFolderOwner (userShareFolder u) u.connUid u.gid 0o750,
      .setPointOwner (fusePointFolder u remotePoint) u.uid u.gid 0o700] ++
    (if host.isSocket then [.removeSocket (fuseSocket u remotePoint)] else []) ++
    [.createListener (fuseSocket u remotePoint)])

def mountShare (u : ShareUser) (host : ShareHost) (remotePoint : String) (s : State) : Bool × State :=
  let s := s.act [.setSocketOwner (fuseSocket u remotePoint) u.uid u.gid 0o600,
    .mountPoint (fusePointFolder u remotePoint) remotePoint (fuseSocket u remotePoint)]
  if host.mounted then
    (true,{s with fusePoints := fusePointFolder u remotePoint :: s.fusePoints})
  else (false,s.act [.destroyListener (fuseSocket u remotePoint)])

def startFuseListener (u : ShareUser) (host : ShareHost) (remotePoint : String) (s : State) :
    Bool × State :=
  if host.loginMode then (false,s)
  else if !host.remoteFilesUse then (false,s)
  else
    let s := if host.isDirectory then s else s.act [.createDirectories (fusePointFolder u remotePoint)]
    if !host.isDirectory && !host.createDirectories then (false,s)
    else
      let s := prepareShare u host remotePoint s
      if host.socketAppears then mountShare u host remotePoint s else (false,s)

def stopFuseListener (u : ShareUser) (host : StopHost) (remotePoint : String) (s : State) : State :=
  if host.sessionBus then s.act [.umountPoint (fusePointFolder u remotePoint)] else s

def startShares (u : ShareUser) : (Nat → ShareHost) → List String → State → State
  | _, [], s => s
  | host, remotePoint :: rest, s =>
    startShares u (fun i => host (i + 1)) rest (startFuseListener u (host 0) remotePoint s).2

def startSessionChannels (u : ShareUser) (host : Nat → ShareHost) (s : State) : State :=
  startShares u host s.shares s

def dropPoint (host : StopHost) (s : State) (point : Path) : State :=
  s.act (.umount point :: if host.isDirectory point then [.remove point] else [])

def stopSessionChannels (u : ShareUser) (host : StopHost) (s : State) : State :=
  let s := s.shares.foldl (fun s remotePoint => stopFuseListener u host remotePoint s) s
  {s.fusePoints.foldl (dropPoint host) s with fusePoints := []}

inductive Event
  | setSessionOptions (shares : List String)
  | startSessionChannels (host : Nat → ShareHost)
  | stopSessionChannels (host : StopHost)

def step (u : ShareUser) (s : State) : Event → State
  | .setSessionOptions shares => {s with shares}
  | .startSessionChannels host => startSessionChannels u host s
  | .stopSessionChannels host => stopSessionChannels u host s

/- The shares that get as far as the file system. -/
def served : (Nat → ShareHost) → List String → List String
  | _, [] => []
  | host, remotePoint :: rest =>
    (if (host 0).admits then [remotePoint] else []) ++ served (fun i => host (i + 1)) rest

/-! What the shares must not do to each other and to what is around them. -/

def Below (u : ShareUser) (a : Action) : Prop :=
  ∀ dir, a.shareDirectory = some dir → StrictlyBelow dir (userShareFolder u)

def Confined (u : ShareUser) (s : State) : Prop := ∀ a ∈ s.log, Below u a

def Separate (u : ShareUser) (first second : String) : Prop :=
  resolve (fusePointFolder u first) ≠ resolve (fusePointFolder u second) ∧
    resolve (fuseSocket u first) ≠ resolve (fuseSocket u second)

def SharesApart (u : ShareUser) (s : State) : Event → Prop
  | .startSessionChannels host => ∀ first ∈ served host s.shares, ∀ second ∈ served host s.shares,
      first ≠ second → Separate u first second
  | .setSessionOptions _ | .stopSessionChannels _ => True

def namesProper (s : State) : Event → Prop
  | .startSessionChannels host => ∀ share ∈ served host s.shares, ProperName (filename share)
  | .stopSessionChannels host => host.sessionBus → ∀ share ∈ s.shares, ProperName (filename share)
  | .setSessionOptions _ => True

def namesDistinct (s : State) : Event → Prop
  | .startSessionChannels host => ∀ first ∈ served host s.shares, ∀ second ∈ served host s.shares,
      first ≠ second → filename first ≠ filename second
  | .setSessionOptions _ | .stopSessionChannels _ => True

section
variable {u : ShareUser}

theorem belowPoint (remotePoint : String) :
    StrictlyBelow (fusePointFolder u remotePoint) (userShareFolder u) ↔ ProperName (filename remotePoint) :=
  strictlyBelowJoin

theorem confinedAct {s : State} {actions : List Action} :
    Confined u (s.act actions) ↔ Confined u s ∧ ∀ a ∈ actions, Below u a := by
  simp [Confined,State.act,or_imp,forall_and]

theorem createConfined (remotePoint : String) (s : State) :
    Confined u (s.act [.createDirectories (fusePointFolder u remotePoint)]) ↔
      Confined u s ∧ ProperName (filename remotePoint) := by
  rw [confinedAct,← belowPoint (u := u)]
  simp [Below,Action.shareDirectory]

theorem prepareConfined (host : ShareHost) (remotePoint : String) (s : State) :
    Confined u (prepareShare u host remotePoint s) ↔ Confined u s ∧ ProperName (filename remotePoint) := by
  rw [prepareShare,confinedAct,← belowPoint (u := u)]
  cases host.isSocket <;> simp [Below,Action.shareDirectory]

theorem mountConfined (host : ShareHost) (remotePoint : String) {s : State}
    (proper : ProperName (filename remotePoint)) :
    Confined u (mountShare u host remotePoint s).2 ↔ Confined u s := by
  have below := (belowPoint (u := u) remotePoint).mpr proper
  cases mounted : host.mounted <;>
    simp [mountShare,mounted,Confined,State.act,or_imp,forall_and,Below,Action.shareDirectory,below]

theorem mountKeepsLog (host : ShareHost) (remotePoint : String) {s : State}
    (h : Confined u (mountShare u host remotePoint s).2) : Confined u s := by
  unfold mountShare at h
  split at h
  · exact (confinedAct.mp h).1
  · exact (confinedAct.mp (confinedAct.mp h).1).1

/- A share that is admitted touches its mount folder, and no other directory. -/
theorem startConfined (host : ShareHost) (remotePoint : String) (s : State) :
    Confined u (startFuseListener u host remotePoint s).2 ↔
      Confined u s ∧ (host.admits → ProperName (filename remotePoint)) := by
  unfold startFuseListener
  by_cases login : host.loginMode
  · simp [login,ShareHost.admits]
  by_cases files : host.remoteFilesUse
  · have admits : host.admits = true := by simp [ShareHost.admits,login,files]
    simp only [login,files,admits,Bool.not_true,Bool.false_eq_true,if_false,forall_const]
    -- the folder is there, was made, or could not be made
    have prepared {s : State} : Confined u (if host.socketAppears then
        mountShare u host remotePoint (prepareShare u host remotePoint s)
        else (false,prepareShare u host remotePoint s)).2 ↔
        Confined u s ∧ ProperName (filename remotePoint) := by
      by_cases appears : host.socketAppears
      · rw [if_pos appears]
        constructor
        · exact fun h => (prepareConfined host remotePoint s).mp (mountKeepsLog host remotePoint h)
        · intro h
          exact (mountConfined host remotePoint h.2).mpr ((prepareConfined host remotePoint s).mpr h)
      · rw [if_neg appears]
        exact prepareConfined host remotePoint s
    by_cases there : host.isDirectory
    · simp only [there,if_true,Bool.not_true,Bool.false_and,Bool.false_eq_true,if_false]
      exact prepared
    · by_cases made : host.createDirectories
      · simp only [there,made,Bool.not_true,Bool.and_false,Bool.false_eq_true,if_false]
        rw [prepared,createConfined,and_assoc,and_self]
      · simp only [there,made,Bool.not_false,Bool.and_self,Bool.false_eq_true,if_false,if_true]
        exact createConfined remotePoint s
  · simp [login,files,ShareHost.admits]

theorem startSharesConfined (host : Nat → ShareHost) (shares : List String) (s : State) :
    Confined u (startShares u host shares s) ↔
      Confined u s ∧ ∀ share ∈ served host shares, ProperName (filename share) := by
  induction shares generalizing host s with
  | nil => simp [startShares,served]
  | cons remotePoint rest ih =>
    rw [startShares,ih,startConfined,served,and_assoc]
    cases (host 0).admits <;> simp

/- A mount point on record was mounted by an action on record. -/
def PointsLogged (s : State) : Prop :=
  ∀ point ∈ s.fusePoints, ∃ a ∈ s.log, a.shareDirectory = some point

theorem pointsLoggedAct {s : State} (h : PointsLogged s) (actions : List Action) :
    PointsLogged (s.act actions) := by
  intro point listed
  obtain ⟨a,logged,dir⟩ := h point listed
  exact ⟨a,List.mem_append_left _ logged,dir⟩

theorem mountPointsLogged (host : ShareHost) (remotePoint : String) {s : State}
    (h : PointsLogged s) : PointsLogged (mountShare u host remotePoint s).2 := by
  unfold mountShare
  split
  · intro point listed
    obtain rfl | listed := List.mem_cons.mp listed
    · refine ⟨.mountPoint (fusePointFolder u remotePoint) remotePoint (fuseSocket u remotePoint),?_,rfl⟩
      simp [State.act]
    · exact pointsLoggedAct h _ point listed
  · exact pointsLoggedAct (pointsLoggedAct h _) _

theorem startPointsLogged (host : ShareHost) (remotePoint : String) {s : State}
    (h : PointsLogged s) : PointsLogged (startFuseListener u host remotePoint s).2 := by
  unfold startFuseListener
  split
  · exact h
  split
  · exact h
  have made : PointsLogged (if host.isDirectory then s
      else s.act [.createDirectories (fusePointFolder u remotePoint)]) := by
    split
    · exact h
    · exact pointsLoggedAct h _
  dsimp only
  split
  · exact made
  split
  · exact mountPointsLogged host remotePoint (pointsLoggedAct made _)
  · exact pointsLoggedAct made _

theorem startSharesPointsLogged (host : Nat → ShareHost) (shares : List String) {s : State}
    (h : PointsLogged s) : PointsLogged (startShares u host shares s) := by
  induction shares generalizing host s with
  | nil => exact h
  | cons remotePoint rest ih => exact ih _ (startPointsLogged (host 0) remotePoint h)

/- Asking the session to unmount touches the mount folders and leaves the points. -/
theorem stopListenersConfined (host : StopHost) (shares : List String) (s : State) :
    Confined u (shares.foldl (fun s remotePoint => stopFuseListener u host remotePoint s) s) ↔
      Confined u s ∧ (host.sessionBus → ∀ share ∈ shares, ProperName (filename share)) := by
  induction shares generalizing s with
  | nil => simp
  | cons remotePoint rest ih =>
    have one : Confined u (stopFuseListener u host remotePoint s) ↔
        Confined u s ∧ (host.sessionBus → ProperName (filename remotePoint)) := by
      unfold stopFuseListener
      by_cases bus : host.sessionBus
      · simp only [bus,if_true,forall_const]
        rw [confinedAct,← belowPoint (u := u)]
        simp [Below,Action.shareDirectory]
      · simp [bus]
    rw [List.foldl_cons,ih,one,and_assoc,← imp_and,List.forall_mem_cons]

theorem stopListenersLogged (host : StopHost) (shares : List String) {s : State} (h : PointsLogged s) :
    PointsLogged (shares.foldl (fun s remotePoint => stopFuseListener u host remotePoint s) s) := by
  induction shares generalizing s with
  | nil => exact h
  | cons remotePoint rest ih =>
    refine ih ?_
    unfold stopFuseListener
    split
    · exact pointsLoggedAct h _
    · exact h

/- Dropping points that are below the folder adds nothing outside it. -/
theorem dropPointsConfined (host : StopHost) (points : List Path) {s : State}
    (below : ∀ point ∈ points, StrictlyBelow point (userShareFolder u)) :
    Confined u (points.foldl (dropPoint host) s) ↔ Confined u s := by
  induction points generalizing s with
  | nil => rfl
  | cons point rest ih =>
    rw [List.foldl_cons,ih fun p listed => below p (List.mem_cons_of_mem _ listed),dropPoint,confinedAct]
    have here := below point List.mem_cons_self
    have added : ∀ a ∈ (Action.umount point :: if host.isDirectory point then [.remove point] else []),
        Below u a := by
      cases host.isDirectory point <;> simp [Below,Action.shareDirectory,here]
    exact and_iff_left added

theorem dropPointsKeepLog (host : StopHost) (points : List Path) {s : State} :
    Confined u (points.foldl (dropPoint host) s) → Confined u s := by
  induction points generalizing s with
  | nil => exact id
  | cons point rest ih => exact fun h => (confinedAct.mp (ih h)).1

theorem stopConfined (host : StopHost) {s : State} (logged : PointsLogged s) :
    Confined u (stopSessionChannels u host s) ↔
      Confined u s ∧ (host.sessionBus → ∀ share ∈ s.shares, ProperName (filename share)) := by
  rw [← stopListenersConfined]
  constructor
  · exact fun h => dropPointsKeepLog host _ h
  · intro confined
    refine (dropPointsConfined host _ fun point listed => ?_).mpr confined
    obtain ⟨a,done,dir⟩ := stopListenersLogged (u := u) host s.shares logged point listed
    exact confined a done point dir

theorem stepPointsLogged (s : State) (event : Event) (h : PointsLogged s) :
    PointsLogged (step u s event) := by
  cases event with
  | setSessionOptions shares => exact h
  | startSessionChannels host => exact startSharesPointsLogged host s.shares h
  | stopSessionChannels host => exact fun point listed => absurd listed (List.not_mem_nil)

theorem stepConfined (s : State) (event : Event) (h : PointsLogged s) :
    Confined u (step u s event) ↔ Confined u s ∧ namesProper s event := by
  cases event with
  | setSessionOptions shares => exact (and_iff_left trivial).symm
  | startSessionChannels host => exact startSharesConfined host s.shares s
  | stopSessionChannels host => exact stopConfined host h

/- Proper names give separate folders and sockets exactly when they differ. -/
theorem separateIff {first second : String} (one : ProperName (filename first))
    (two : ProperName (filename second)) :
    Separate u first second ↔ filename first ≠ filename second := by
  have proper {name : String} : ProperName (name ++ ".sock") := by
    have suffix : (".sock" : String).length = 5 := rfl
    exact properOfLong (by rw [String.length_append]; omega)
  rw [Separate,fusePointFolder,fusePointFolder,fuseSocket,fuseSocket,ne_eq,ne_eq,
    resolveJoinInj one two,resolveJoinInj proper proper,String.append_left_inj,and_self]

theorem separateNames {first second : String} (h : Separate u first second) :
    filename first ≠ filename second := by
  intro same
  exact h.1 (by rw [fusePointFolder,fusePointFolder,same])

theorem apartIff (s : State) (event : Event) :
    namesProper s event ∧ SharesApart u s event ↔ namesProper s event ∧ namesDistinct s event := by
  refine and_congr_right fun proper => ?_
  cases event with
  | setSessionOptions shares => rfl
  | stopSessionChannels host => rfl
  | startSessionChannels host =>
    constructor
    · exact fun apart first one second two differ => separateNames (apart first one second two differ)
    · exact fun distinct first one second two differ =>
        (separateIff (proper first one) (proper second two)).mpr (distinct first one second two differ)

/- In every run of a session, the shares stay below the user's folder and apart from
each other exactly when each list that is started or stopped has proper, distinct names. -/
theorem confinedIff (u : ShareUser) (events : List Event) :
    (Confined u (run (step u) {} events) ∧ Meets (step u) (SharesApart u) {} events) ↔
      Meets (step u) (fun s event => namesProper s event ∧ namesDistinct s event) {} events := by
  have confined := meetsIff (C := namesProper) (Q := Confined u) (stepPointsLogged (u := u))
    (fun s event h => stepConfined s event h) (s := {}) (fun point listed => absurd listed (List.not_mem_nil))
    events
  have start : Confined u {} := fun a logged => absurd logged (List.not_mem_nil)
  rw [confined,and_iff_right start,← meetsAnd]
  simp only [apartIff]

end

def sampleUser : ShareUser := ⟨["run","ltsm"],"user",1000,1000,200⟩

def readyHost : Nat → ShareHost := fun _ => ⟨false,true,true,false,false,true,true⟩

/- A client that shares the folder above a home directory, by a path that ends in dots. -/
def parentShare : List Event :=
  [.setSessionOptions ["/home/user/.."],.startSessionChannels readyHost]

theorem parentReowned :
    Action.setPointOwner ["run","ltsm","fuse","user",".."] 1000 1000 0o700 ∈
        (run (step sampleUser) {} parentShare).log ∧
      resolve ["run","ltsm","fuse","user",".."] = ["run","ltsm","fuse"] ∧
      ¬(Confined sampleUser (run (step sampleUser) {} parentShare) ∧
        Meets (step sampleUser) (SharesApart sampleUser) {} parentShare) := by
  have reowned : Action.setPointOwner ["run","ltsm","fuse","user",".."] 1000 1000 0o700 ∈
      (run (step sampleUser) {} parentShare).log := by decide
  refine ⟨reowned,by decide,fun h => ?_⟩
  have below : StrictlyBelow (userShareFolder sampleUser ++ [".."]) (userShareFolder sampleUser) :=
    h.1 _ reowned _ rfl
  have proper : ProperName ".." := strictlyBelowJoin.mp below
  revert proper
  decide

end Ltsm.FuseShares
