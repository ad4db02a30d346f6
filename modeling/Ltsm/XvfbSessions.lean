import Ltsm.Library.SharedPool
import Mathlib.Data.String.Basic

/-! The sessions of the service. A session is shared between its slot in the pool
and the tasks that were posted with a pointer to it. Times, keyboard layout,
environments and options of a session are left out. -/
namespace Ltsm.XvfbSessions
open Library

inductive SessionMode where
  | started
  | connected
  | disconnected
  | login
  | shutdown
  deriving DecidableEq, Repr

inductive SessionPolicy where
  | authLock
  | authTake
  | authShare
  deriving DecidableEq, Repr

def sessionPolicy (name : String) : SessionPolicy :=
  if name = "authlock" then .authLock
  else if name = "authtake" then .authTake
  else if name = "authshare" then .authShare
  else .authTake

/- The account that runs the login screens. -/
def ltsmUserConn : String := "ltsm-xvfb"

structure XvfbSession where
  user : String
  uid : UInt32
  password : String
  displayNum : Int
  pid1 : Int
  mode : SessionMode
  connectorId : Int := 0
  policy : SessionPolicy := .authTake
  remoteAddr : String := ""
  conntype : String := ""
  encryption : String := ""
  loginFailures : Nat := 0
  connectorFailures : Nat := 0
  checkConnection : Bool := false
  deriving DecidableEq, Repr

abbrev XvfbSessionPtr := Nat
abbrev XvfbPool := SharedPool XvfbSession

def findUserSessions (s : XvfbPool) (username : String) : List (XvfbSessionPtr × XvfbSession) :=
  (s.entries.filter fun e => e.2.mode ≠ .shutdown ∧ username = e.2.user).reverse

def findUserSession (s : XvfbPool) (username : String) : Option (XvfbSessionPtr × XvfbSession) :=
  s.entries.find? fun e =>
    (e.2.mode = .started ∨ e.2.mode = .connected ∨ e.2.mode = .disconnected) ∧ username = e.2.user

def findPidSession (s : XvfbPool) (pid : Int) : Option (XvfbSessionPtr × XvfbSession) :=
  s.entries.find? fun e => e.2.pid1 = pid

def findDisplaySession (s : XvfbPool) (screen : Int) : Option (XvfbSessionPtr × XvfbSession) :=
  s.entries.find? fun e => decide (e.2.displayNum = screen)

def getOnlineSessions (s : XvfbPool) : List (XvfbSessionPtr × XvfbSession) :=
  (s.entries.filter fun e => e.2.mode = .connected).reverse

def removeDisplaySession (screen : Int) (s : XvfbPool) : XvfbPool :=
  s.release fun sess => sess.displayNum = screen

def getSessionsUsersUid (s : XvfbPool) : List UInt32 := (s.entries.map fun e => e.2.uid).dedup

/- Display numbers are handed out once, so a session keeps its display for itself. -/
abbrev OwnDisplays (s : XvfbPool) : Prop := SharedPool.UniqueKeys XvfbSession.displayNum s

section
variable {s : XvfbPool} {p : XvfbSessionPtr} {x : XvfbSession} {username : String} {screen : Int}

theorem displaySource (found : findDisplaySession s screen = some (p,x)) :
    (p,x) ∈ s.entries ∧ s.get p = some x ∧ x.displayNum = screen := by
  have inside := List.mem_of_find?_eq_some found
  exact ⟨inside,SharedPool.entriesGet inside,by simpa using List.find?_some found⟩

theorem memUserSessions : (p,x) ∈ findUserSessions s username ↔
    (p,x) ∈ s.entries ∧ x.mode ≠ .shutdown ∧ x.user = username := by
  unfold findUserSessions
  rw [List.mem_reverse,List.mem_filter,decide_eq_true_eq,eq_comm (a := username)]

theorem userSource (found : findUserSession s username = some (p,x)) :
    (p,x) ∈ s.entries ∧ x.mode ≠ .shutdown ∧ x.user = username := by
  have test := List.find?_some found
  simp only [decide_eq_true_eq] at test
  obtain ⟨mode,user⟩ := test
  refine ⟨List.mem_of_find?_eq_some found,?_,user.symm⟩
  intro shut
  simp [shut] at mode

end
end Ltsm.XvfbSessions
