import Ltsm.LoginWindow
import Ltsm.SessionAttachment

/-! Who has a claim on the session of a user: the connector that logs the user in, and
the connector that has reported for it. Where the service keeps its users to AuthLock
there is to be one of them. -/
namespace Ltsm.LoginClaims
open Library XvfbSessions DBusAdaptor SessionMoves LoginMoves SessionAttachment ConnectorLogin
  CredentialBinding LoginWindow

/- Connected, or between the request for the session and the report. -/
def AttachedTo (s : System) (p : XvfbSessionPtr) (x : XvfbSession) (pid : Pid) : Prop :=
  (∃ k ∈ s.connectors, k.pid = pid ∧ target k = some x.displayNum) ∨
    live p pid.id s.service.history = true

/- Whoever logs the user in, or is connected to a session of the user that is up. -/
def Claims (s : System) (user : String) (pid : Pid) : Prop :=
  (∃ k ∈ s.connectors, k.pid = pid ∧ window s.service.signals k = some user) ∨
    ∃ p x, (p,x) ∈ s.service.pool.entries ∧ x.user = user ∧ x.mode ≠ .shutdown ∧
      live p pid.id s.service.history = true

/- A report may still come for a session that has been shut down. -/
def Up (s : System) (p : XvfbSessionPtr) (x : XvfbSession) : Prop :=
  (p,x) ∈ s.service.pool.entries ∧
    (x.mode ≠ .shutdown ∨ ∃ k ∈ s.connectors, target k = some x.displayNum)

def pastLogin : Phase → Bool
  | .listening | .loginSuccess _ => false
  | _ => true

/- The session of a standing report is Connected by that connector, unless it was shut down. -/
def ReportsKept (s : Service) : Prop :=
  ∀ p x pid, s.pool.get p = some x → x.mode ≠ .shutdown → live p pid s.history = true →
    x.mode = .connected ∧ x.connectorId = pid

structure Housed (s : Service) : Prop where
  policies : ∀ p x, s.pool.get p = some x →
    x.policy = if x.user = ltsmUserConn then .authTake else .authLock
  next : 0 < s.freeDisplay
  displays : ∀ p x, s.pool.get p = some x → 0 < x.displayNum
  screens : ∀ p x, .loginScreen p ∈ s.history → s.pool.get p = some x → x.user = ltsmUserConn

structure Locked (s : System) : Prop where
  pids : (s.connectors.map Connector.pid).Nodup
  below : ∀ k ∈ s.connectors, k.phase = .listening → k.displayNum < s.service.freeDisplay
  screen : ∀ k ∈ s.connectors, ∀ other ∈ s.connectors, k.phase = .listening → other.phase = .listening →
    k.displayNum = other.displayNum → k.pid = other.pid
  users : ∀ k ∈ s.connectors, ∀ user, window s.service.signals k = some user → user ≠ ltsmUserConn
  targets : ∀ k ∈ s.connectors, ∀ d, target k = some d → ∃ p x, s.service.pool.get p = some x ∧
    x.displayNum = d ∧ window s.service.signals k = some x.user
  connected : ∀ k ∈ s.connectors, k.phase = .connected → ∃ p x, s.service.pool.get p = some x ∧
    x.displayNum = k.displayNum ∧ x.user ≠ ltsmUserConn
  reporters : ∀ p pid, live p pid s.service.history = true → s.service.pool.Allocated p ∧
    ∃ k ∈ s.connectors, k.pid.id = pid ∧ pastLogin k.phase = true
  kept : ReportsKept s.service
  single : ∀ p x q y, Up s p x → Up s q y → x.user = y.user → x.user ≠ ltsmUserConn → p = q
  claims : ∀ user a b, user ≠ ltsmUserConn → Claims s user a → Claims s user b → a = b
  attached : ∀ p x a b, s.service.pool.get p = some x → x.user ≠ ltsmUserConn →
    AttachedTo s p x a → AttachedTo s p x b → a = b

/- What a session is and stays. -/
structure Persona where
  user : String
  displayNum : Int
  policy : SessionPolicy
  deriving DecidableEq, Repr

def persona (x : XvfbSession) : Persona := ⟨x.user,x.displayNum,x.policy⟩

/- No session comes up, no report comes in and nothing is put into the pool. -/
structure Subsides (s t : Service) : Prop where
  sessions : SharedPool.Alike persona s.pool t.pool
  slots : ∀ p, some p ∈ t.pool.slots → some p ∈ s.pool.slots
  modes : ∀ p x y, s.pool.get p = some x → t.pool.get p = some y → y.mode ≠ .shutdown → x.mode ≠ .shutdown
  display : s.freeDisplay ≤ t.freeDisplay
  reports : ∀ p pid, live p pid t.history = true → live p pid s.history = true

/- The display of a session that is up, given to the connector that logs its user in. -/
def Takes (s : Service) (k : Connector) (d : Int) : Prop :=
  ∃ p x, s.pool.get p = some x ∧ x.displayNum = d ∧ window s.signals k = some x.user ∧
    x.mode ≠ .shutdown ∧ ((p,x) ∈ s.pool.entries ∨ ∀ pid, live p pid s.history = false)

structure Moves (s : Service) (k k' : Connector) : Prop where
  pid : k'.pid = k.pid
  listening : k'.phase = .listening → k.phase = .listening ∧ k'.displayNum = k.displayNum
  past : pastLogin k.phase = true → pastLogin k'.phase = true
  connected : k'.phase = .connected →
    k.phase = .connected ∧ k'.displayNum = k.displayNum ∨ target k = some k'.displayNum
  window : ∀ user, window s.signals k' = some user → window s.signals k = some user
  target : ∀ d, target k' = some d → target k = some d ∨ Takes s k d

section
variable {s : System} {t u : Service} {p q : XvfbSessionPtr} {x y : XvfbSession} {c : Config}
  {k : Connector} {ks : List Connector} {index : Nat}

theorem personaUser (same : persona x = persona y) : x.user = y.user := congrArg Persona.user same
theorem personaDisplay (same : persona x = persona y) : x.displayNum = y.displayNum :=
  congrArg Persona.displayNum same
theorem personaPolicy (same : persona x = persona y) : x.policy = y.policy := congrArg Persona.policy same

theorem pidOfId {a b : Pid} (same : a.id = b.id) : a = b := by
  cases a
  cases b
  cases same
  rfl

theorem Moves.refl (s : Service) (k : Connector) : Moves s k k :=
  ⟨rfl,fun phase => ⟨phase,rfl⟩,id,fun phase => .inl ⟨phase,rfl⟩,fun _ => id,fun _ => .inl⟩

theorem movesAll (s : Service) (ks : List Connector) : List.Forall₂ (Moves s) ks ks :=
  List.forall₂_same.mpr fun k _ => Moves.refl s k

theorem Subsides.entry {s : Service} (fewer : Subsides s t) (inside : (p,y) ∈ t.pool.entries) :
    ∃ x, (p,x) ∈ s.pool.entries ∧ persona y = persona x ∧ (y.mode ≠ .shutdown → x.mode ≠ .shutdown) := by
  obtain ⟨held,found⟩ := SharedPool.memEntries.mp inside
  obtain ⟨x,before,same⟩ := fewer.sessions.source found
  exact ⟨x,SharedPool.memEntries.mpr ⟨fewer.slots p held,before⟩,same,fewer.modes p x y before found⟩

theorem Housed.keeps {s : Service} (sessions : SharedPool.Alike persona s.pool t.pool)
    (display : s.freeDisplay ≤ t.freeDisplay)
    (screens : ∀ p, .loginScreen p ∈ t.history → .loginScreen p ∈ s.history) (h : Housed s) : Housed t := by
  refine ⟨?_,h.next.trans_le display,?_,?_⟩
  · intro p y found
    obtain ⟨x,before,same⟩ := sessions.source found
    rw [personaPolicy same,personaUser same]
    exact h.policies p x before
  · intro p y found
    obtain ⟨x,before,same⟩ := sessions.source found
    rw [personaDisplay same]
    exact h.displays p x before
  · intro p y shown found
    obtain ⟨x,before,same⟩ := sessions.source found
    rw [personaUser same]
    exact h.screens p x (screens p shown) before

theorem Housed.launch {s : Service} (display : x.displayNum = s.freeDisplay)
    (policy : x.policy = if x.user = ltsmUserConn then .authTake else .authLock)
    (screens : ∀ p, .loginScreen p ∈ s.history → s.pool.Allocated p) (h : Housed s) : Housed (s.launch x) := by
  refine ⟨?_,h.next.trans (Int.lt_succ _),?_,?_⟩
  · intro p y found
    rcases SharedPool.insertSource found with ⟨_,rfl⟩ | old
    · exact policy
    · exact h.policies p y old
  · intro p y found
    rcases SharedPool.insertSource found with ⟨_,rfl⟩ | old
    · rw [display]
      exact h.next
    · exact h.displays p y old
  · intro p y shown found
    rcases SharedPool.insertSource found with ⟨rfl,_⟩ | old
    · exact absurd (screens _ shown) (lt_irrefl _)
    · exact h.screens p y shown old

/-! Connectors that move on while the service loses at most. -/

theorem claimsMove (fewer : Subsides s.service t) (signals : t.signals = s.service.signals)
    (moves : List.Forall₂ (Moves s.service) s.connectors ks) {user : String} {a : Pid}
    (claim : Claims ⟨t,ks⟩ user a) : Claims s user a := by
  rcases claim with opened | connected
  · obtain ⟨k',inside,pid,opened⟩ := opened
    obtain ⟨k,there,moved⟩ := forallSource moves inside
    rw [signals] at opened
    exact .inl ⟨k,there,moved.pid.symm.trans pid,moved.window user opened⟩
  · obtain ⟨p,y,inside,owner,up,alive⟩ := connected
    obtain ⟨x,before,same,stays⟩ := fewer.entry inside
    exact .inr ⟨p,x,before,(personaUser same).symm.trans owner,stays up,fewer.reports _ _ alive⟩

/- Where the session a connector has been given is up, being attached to it is a claim. -/
theorem attachedClaims (h : Locked s) (own : OwnDisplays s.service.pool) {a : Pid}
    (found : s.service.pool.get p = some x) (up : x.mode ≠ .shutdown)
    (held : (p,x) ∈ s.service.pool.entries ∨ ∀ pid, live p pid s.service.history = false)
    (attached : AttachedTo s p x a) : Claims s x.user a := by
  rcases attached with given | alive
  · obtain ⟨k,inside,pid,given⟩ := given
    obtain ⟨q,y,there,display,opened⟩ := h.targets k inside _ given
    obtain ⟨rfl,rfl⟩ := SharedPool.uniqueSame own found there display.symm
    exact .inl ⟨k,inside,pid,opened⟩
  · rcases held with inside | dead
    · exact .inr ⟨p,x,inside,rfl,up,alive⟩
    · rw [dead] at alive
      contradiction

/- What a connector that has moved on is given is given by its login. -/
theorem givenMoved (h : Locked s) {k k' : Connector} (moved : Moves s.service k k') (inside : k ∈ s.connectors)
    {d : Int} (aims : target k' = some d) : ∃ p x, s.service.pool.get p = some x ∧ x.displayNum = d ∧
      window s.service.signals k = some x.user ∧ (target k = some d ∨
        x.mode ≠ .shutdown ∧ ((p,x) ∈ s.service.pool.entries ∨ ∀ pid, live p pid s.service.history = false)) := by
  rcases moved.target d aims with old | taken
  · obtain ⟨p,x,found,display,opened⟩ := h.targets k inside d old
    exact ⟨p,x,found,display,opened,.inl old⟩
  · obtain ⟨p,x,found,display,opened,rest⟩ := taken
    exact ⟨p,x,found,display,opened,.inr rest⟩

theorem targetMoved (h : Locked s) (fewer : Subsides s.service t) {k k' : Connector}
    (moved : Moves s.service k k') (inside : k ∈ s.connectors) {d : Int} (aims : target k' = some d) :
    ∃ p y, t.pool.get p = some y ∧ y.displayNum = d ∧ window s.service.signals k' = some y.user := by
  obtain ⟨p,x,found,display,opened,_⟩ := givenMoved h moved inside aims
  obtain ⟨y,after,same⟩ : ∃ y, t.pool.get p = some y ∧ persona y = persona x := fewer.sessions.target found
  obtain ⟨user,logged⟩ := windowTarget aims s.service.signals
  have who : user = x.user := Option.some.inj ((moved.window user logged).symm.trans opened)
  refine ⟨p,y,after,(personaDisplay same).trans display,?_⟩
  rw [logged,who,personaUser same]

theorem connectedMoved (h : Locked s) (fewer : Subsides s.service t) {k k' : Connector}
    (moved : Moves s.service k k') (inside : k ∈ s.connectors) (phase : k'.phase = .connected) :
    ∃ p y, t.pool.get p = some y ∧ y.displayNum = k'.displayNum ∧ y.user ≠ ltsmUserConn := by
  obtain ⟨p,x,found,display,user⟩ : ∃ p x, s.service.pool.get p = some x ∧
      x.displayNum = k'.displayNum ∧ x.user ≠ ltsmUserConn := by
    rcases moved.connected phase with old | reported
    · obtain ⟨p,x,found,display,user⟩ := h.connected k inside old.1
      exact ⟨p,x,found,display.trans old.2.symm,user⟩
    · obtain ⟨p,x,found,display,opened⟩ := h.targets k inside _ reported
      exact ⟨p,x,found,display,h.users k inside _ opened⟩
  obtain ⟨y,after,same⟩ : ∃ y, t.pool.get p = some y ∧ persona y = persona x := fewer.sessions.target found
  exact ⟨p,y,after,(personaDisplay same).trans display,personaUser same ▸ user⟩

/- A session that is up was up before. -/
theorem upBefore (h : Locked s) (own : OwnDisplays s.service.pool) (fewer : Subsides s.service t)
    (moves : List.Forall₂ (Moves s.service) s.connectors ks) (up : Up ⟨t,ks⟩ p y) :
    ∃ x, Up s p x ∧ persona y = persona x := by
  obtain ⟨x,entry,same,rises⟩ := fewer.entry up.1
  refine ⟨x,⟨entry,?_⟩,same⟩
  rcases up.2 with mode | aimed
  · exact .inl (rises mode)
  · obtain ⟨k',inside,aims⟩ := aimed
    obtain ⟨k,there,moved⟩ := forallSource moves inside
    obtain ⟨q,z,found,display,_,old | ⟨mode,_⟩⟩ := givenMoved h moved there aims
    · exact .inr ⟨k,there,by rw [old,personaDisplay same]⟩
    · obtain ⟨rfl,rfl⟩ := SharedPool.uniqueSame own found (SharedPool.entriesGet entry)
        (display.trans (personaDisplay same))
      exact .inl mode

/- Whoever is attached to a session was attached to it, or has a claim on its user. -/
theorem attachedBefore (h : Locked s) (own : OwnDisplays s.service.pool) (fewer : Subsides s.service t)
    (moves : List.Forall₂ (Moves s.service) s.connectors ks) (found : s.service.pool.get p = some x)
    (same : persona y = persona x) {pid : Pid} (attached : AttachedTo ⟨t,ks⟩ p y pid) :
    AttachedTo s p x pid ∨ Claims s x.user pid ∧ x.mode ≠ .shutdown ∧
      ((p,x) ∈ s.service.pool.entries ∨ ∀ pid, live p pid s.service.history = false) := by
  rcases attached with aimed | alive
  · obtain ⟨k',inside,number,aims⟩ := aimed
    obtain ⟨k,there,moved⟩ := forallSource moves inside
    obtain ⟨q,z,here,display,opened,old | ⟨mode,held⟩⟩ := givenMoved h moved there aims
    · exact .inl (.inl ⟨k,there,moved.pid.symm.trans number,by rw [old,personaDisplay same]⟩)
    · obtain ⟨rfl,rfl⟩ := SharedPool.uniqueSame own here found (display.trans (personaDisplay same))
      exact .inr ⟨.inl ⟨k,there,moved.pid.symm.trans number,opened⟩,mode,held⟩
  · exact .inl (.inr (fewer.reports _ _ alive))

theorem Locked.moves (h : Locked s) (own : OwnDisplays s.service.pool) (fewer : Subsides s.service t)
    (kept : ReportsKept t) (signals : t.signals = s.service.signals)
    (moves : List.Forall₂ (Moves s.service) s.connectors ks) : Locked ⟨t,ks⟩ := by
  have source {k' : Connector} (inside : k' ∈ ks) : ∃ k ∈ s.connectors, Moves s.service k k' :=
    forallSource moves inside
  refine ⟨?_,?_,?_,?_,?_,?_,?_,kept,?_,?_,?_⟩
  · have same : s.connectors.map Connector.pid = ks.map Connector.pid := by
      rw [← List.forall₂_eq_eq_eq,List.forall₂_map_left_iff,List.forall₂_map_right_iff]
      exact moves.imp fun k k' moved => moved.pid.symm
    rw [← same]
    exact h.pids
  · intro k' inside phase
    obtain ⟨k,there,moved⟩ := source inside
    obtain ⟨listens,display⟩ := moved.listening phase
    rw [display]
    exact (h.below k there listens).trans_le fewer.display
  · intro k' inside other' too phase phaseToo display
    obtain ⟨k,there,moved⟩ := source inside
    obtain ⟨other,thereToo,movedToo⟩ := source too
    obtain ⟨listens,number⟩ := moved.listening phase
    obtain ⟨listensToo,numberToo⟩ := movedToo.listening phaseToo
    rw [moved.pid,movedToo.pid]
    exact h.screen k there other thereToo listens listensToo (by rw [← number,← numberToo,display])
  · intro k' inside user opened
    obtain ⟨k,there,moved⟩ := source inside
    rw [signals] at opened
    exact h.users k there user (moved.window user opened)
  · intro k' inside d aims
    obtain ⟨k,there,moved⟩ := source inside
    rw [signals]
    exact targetMoved h fewer moved there aims
  · intro k' inside phase
    obtain ⟨k,there,moved⟩ := source inside
    exact connectedMoved h fewer moved there phase
  · intro p pid alive
    obtain ⟨allocated,k,there,number,past⟩ := h.reporters p pid (fewer.reports p pid alive)
    obtain ⟨x,found⟩ : ∃ x, s.service.pool.get p = some x := SharedPool.allocatedGet allocated
    obtain ⟨y,after,_⟩ : ∃ y, t.pool.get p = some y ∧ persona y = persona x := fewer.sessions.target found
    obtain ⟨k',inside,moved⟩ := forallTarget moves there
    exact ⟨SharedPool.getAllocated after,k',inside,by rw [moved.pid,number],moved.past past⟩
  · intro p x q y upP upQ user account
    obtain ⟨x₀,oldP,sameP⟩ := upBefore h own fewer moves upP
    obtain ⟨y₀,oldQ,sameQ⟩ := upBefore h own fewer moves upQ
    apply h.single p x₀ q y₀ oldP oldQ
    · rw [← personaUser sameP,← personaUser sameQ,user]
    · exact personaUser sameP ▸ account
  · intro user a b account first second
    exact h.claims user a b account (claimsMove fewer signals moves first) (claimsMove fewer signals moves second)
  · intro p y a b after account first second
    obtain ⟨x,found,same⟩ := fewer.sessions.source after
    rw [personaUser same] at account
    rcases attachedBefore h own fewer moves found same first with old | ⟨claim,mode,held⟩
    · rcases attachedBefore h own fewer moves found same second with oldToo | ⟨claimToo,mode,held⟩
      · exact h.attached p x a b found account old oldToo
      · exact h.claims x.user a b account (attachedClaims h own found mode held old) claimToo
    · rcases attachedBefore h own fewer moves found same second with old | ⟨claimToo,_,_⟩
      · exact h.claims x.user a b account claim (attachedClaims h own found mode held old)
      · exact h.claims x.user a b account claim claimToo

/-! Signals that make connectors start a login. -/

/- The connector had heard of no login, and hears of one now. -/
def Gains (signals sent : List Signal) (k : Connector) (user : String) : Prop :=
  window signals k = none ∧ window (signals ++ sent) k = some user

theorem Locked.hear (h : Locked s) (sent : List Signal)
    (fresh : ∀ k ∈ s.connectors, ∀ user, Gains s.service.signals sent k user → user ≠ ltsmUserConn ∧ ∀ a, ¬Claims s user a)
    (alone : ∀ k ∈ s.connectors, ∀ other ∈ s.connectors, ∀ user,
      Gains s.service.signals sent k user → Gains s.service.signals sent other user → k.pid = other.pid) :
    Locked ⟨{s.service with signals := s.service.signals ++ sent},s.connectors⟩ := by
  have split (k : Connector) (user : String) (opened : window (s.service.signals ++ sent) k = some user) :
      window s.service.signals k = some user ∨ Gains s.service.signals sent k user := by
    rcases windowSent opened with old | ⟨none,_⟩
    · exact .inl old
    · exact .inr ⟨none,opened⟩
  have claims (user : String) (a : Pid)
      (claim : Claims ⟨{s.service with signals := s.service.signals ++ sent},s.connectors⟩ user a) :
      Claims s user a ∨ ∃ k ∈ s.connectors, k.pid = a ∧ Gains s.service.signals sent k user := by
    rcases claim with ⟨k,inside,number,opened⟩ | connected
    · rcases split k user opened with old | gained
      · exact .inl (.inl ⟨k,inside,number,old⟩)
      · exact .inr ⟨k,inside,number,gained⟩
    · exact .inl (.inr connected)
  refine ⟨h.pids,h.below,h.screen,?_,?_,h.connected,h.reporters,h.kept,h.single,?_,h.attached⟩
  · intro k inside user opened
    rcases split k user opened with old | gained
    · exact h.users k inside user old
    · exact (fresh k inside user gained).1
  · intro k inside d aims
    obtain ⟨p,x,found,display,opened⟩ := h.targets k inside d aims
    obtain ⟨user,later⟩ := windowTarget aims (s.service.signals ++ sent)
    rcases split k user later with old | gained
    · rw [opened] at old
      cases Option.some.inj old
      exact ⟨p,x,found,display,later⟩
    · rw [gained.1] at opened
      contradiction
  · intro user a b account first second
    rcases claims user a first with old | ⟨k,inside,number,gained⟩
    · rcases claims user b second with oldToo | ⟨other,there,_,gained⟩
      · exact h.claims user a b account old oldToo
      · exact absurd old ((fresh other there user gained).2 a)
    · rcases claims user b second with old | ⟨other,there,numberToo,gainedToo⟩
      · exact absurd old ((fresh k inside user gained).2 b)
      · rw [← number,← numberToo]
        exact alone k inside other there user gained gainedToo

theorem Locked.advance (h : Locked s) (own : OwnDisplays s.service.pool) (fewer : Subsides s.service t)
    (kept : ReportsKept t) (moves : List.Forall₂ (Moves s.service) s.connectors ks) {sent : List Signal}
    (grown : t.signals = s.service.signals ++ sent)
    (fresh : ∀ k ∈ ks, ∀ user, Gains s.service.signals sent k user →
      user ≠ ltsmUserConn ∧ ∀ a, ¬Claims s user a)
    (alone : ∀ k ∈ ks, ∀ other ∈ ks, ∀ user, Gains s.service.signals sent k user →
      Gains s.service.signals sent other user → k.pid = other.pid) : Locked ⟨t,ks⟩ := by
  -- first what the connectors and the pool do, then what is heard
  have unheard : Subsides s.service {t with signals := s.service.signals} :=
    ⟨fewer.sessions,fewer.slots,fewer.modes,fewer.display,fewer.reports⟩
  have moved : Locked ⟨{t with signals := s.service.signals},ks⟩ := h.moves own unheard kept rfl moves
  have heard := moved.hear sent (fun k inside user gained => ⟨(fresh k inside user gained).1,
    fun a claim => (fresh k inside user gained).2 a (claimsMove unheard rfl moves claim)⟩) alone
  rw [← grown] at heard
  exact heard

theorem Locked.silent (h : Locked s) (own : OwnDisplays s.service.pool) (fewer : Subsides s.service t)
    (kept : ReportsKept t) (moves : List.Forall₂ (Moves s.service) s.connectors ks)
    (sends : Sends (fun _ _ => False) s.service t) : Locked ⟨t,ks⟩ := by
  obtain ⟨sent,grown,nothing⟩ := sends
  have deaf (k : Connector) (user : String) (gained : Gains s.service.signals sent k user) : False := by
    rcases windowSent gained.2 with old | ⟨_,_,uid,inside⟩
    · rw [gained.1] at old
      contradiction
    · exact nothing _ _ _ inside
  exact h.advance own fewer kept moves grown (fun k _ user gained => (deaf k user gained).elim)
    fun k _ _ _ user gained => (deaf k user gained).elim

/-! A new session, a new connector and a report. -/

theorem Locked.launch (h : Locked s) (wellformed : Wellformed s.service)
    (display : x.displayNum = s.service.freeDisplay)
    (alone : x.user ≠ ltsmUserConn → ∀ q y, Up s q y → y.user ≠ x.user) :
    Locked ⟨s.service.launch x,s.connectors⟩ := by
  have dead (pid : Int) : live s.service.pool.heap.length pid s.service.history = false := by
    cases alive : live s.service.pool.heap.length pid s.service.history with
    | false => rfl
    | true => exact absurd (h.reporters _ pid alive).1 (lt_irrefl _)
  -- no connector has been given the new display yet
  have unaimed (k : Connector) (inside : k ∈ s.connectors) : target k ≠ some x.displayNum := by
    intro aims
    obtain ⟨q,y,found,number,_⟩ := h.targets k inside _ aims
    have below := wellformed.fresh q y found
    omega
  have entry {q : XvfbSessionPtr} {y : XvfbSession} (inside : (q,y) ∈ (s.service.launch x).pool.entries) :
      q = s.service.pool.heap.length ∧ y = x ∨ (q,y) ∈ s.service.pool.entries := by
    obtain ⟨held,found⟩ := SharedPool.memEntries.mp inside
    rcases SharedPool.insertSource found with new | old
    · exact .inl new
    · rcases SharedPool.insertSlots held with before | new
      · exact .inr (SharedPool.memEntries.mpr ⟨before,old⟩)
      · have allocated := SharedPool.getAllocated old
        cases new
        exact absurd allocated (lt_irrefl _)
  refine ⟨h.pids,?_,h.screen,h.users,?_,?_,?_,?_,?_,?_,?_⟩
  · intro k inside phase
    exact (h.below k inside phase).trans (Int.lt_succ _)
  · intro k inside d aims
    obtain ⟨p,y,found,rest⟩ := h.targets k inside d aims
    exact ⟨p,y,SharedPool.getInsertOld found,rest⟩
  · intro k inside phase
    obtain ⟨p,y,found,rest⟩ := h.connected k inside phase
    exact ⟨p,y,SharedPool.getInsertOld found,rest⟩
  · intro p pid alive
    obtain ⟨allocated,rest⟩ := h.reporters p pid alive
    refine ⟨?_,rest⟩
    obtain ⟨y,found⟩ : ∃ y, s.service.pool.get p = some y := SharedPool.allocatedGet allocated
    exact SharedPool.getAllocated (SharedPool.getInsertOld (a := x) found)
  · intro p y pid found up alive
    rcases SharedPool.insertSource found with ⟨rfl,_⟩ | old
    · have none := (dead pid).symm.trans alive
      contradiction
    · exact h.kept p y pid old up alive
  · intro p y q z upP upQ same account
    have old {r : XvfbSessionPtr} {w : XvfbSession} (up : Up ⟨s.service.launch x,s.connectors⟩ r w)
        (before : (r,w) ∈ s.service.pool.entries) : Up s r w := ⟨before,up.2⟩
    rcases entry upP.1 with ⟨newP,rfl⟩ | oldP
    · rcases entry upQ.1 with ⟨newQ,_⟩ | oldQ
      · exact newP.trans newQ.symm
      · exact absurd same.symm (alone account q z (old upQ oldQ))
    · rcases entry upQ.1 with ⟨newQ,rfl⟩ | oldQ
      · exact absurd same (alone (same ▸ account) p y (old upP oldP))
      · exact h.single p y q z (old upP oldP) (old upQ oldQ) same account
  · have claims (user : String) (a : Pid) (claim : Claims ⟨s.service.launch x,s.connectors⟩ user a) :
        Claims s user a := by
      rcases claim with opened | ⟨p,y,inside,owner,up,alive⟩
      · exact .inl opened
      · rcases entry inside with ⟨rfl,_⟩ | old
        · have none := (dead a.id).symm.trans alive
          contradiction
        · exact .inr ⟨p,y,old,owner,up,alive⟩
    intro user a b account first second
    exact h.claims user a b account (claims user a first) (claims user b second)
  · intro p y a b found account first second
    rcases SharedPool.insertSource found with ⟨rfl,rfl⟩ | old
    · rcases first with ⟨k,inside,_,aims⟩ | alive
      · exact absurd aims (unaimed k inside)
      · have none := (dead a.id).symm.trans alive
        contradiction
    · exact h.attached p y a b old account first second

theorem Locked.join (h : Locked s) (phase : k.phase = .listening)
    (heard : k.received = s.service.signals.length) (below : k.displayNum < s.service.freeDisplay)
    (new : ∀ other ∈ s.connectors, other.pid ≠ k.pid)
    (apart : ∀ other ∈ s.connectors, other.phase = .listening → other.displayNum ≠ k.displayNum) :
    Locked ⟨s.service,s.connectors ++ [k]⟩ := by
  have silent : window s.service.signals k = none := by
    unfold window
    rw [phase,heard,List.drop_length]
    rfl
  have unaimed : target k = none := by
    unfold target
    rw [phase]
  have member {other : Connector} (inside : other ∈ s.connectors ++ [k]) : other ∈ s.connectors ∨ other = k := by
    simpa using inside
  have claims {user : String} {a : Pid} (claim : Claims ⟨s.service,s.connectors ++ [k]⟩ user a) :
      Claims s user a := by
    rcases claim with ⟨other,inside,number,opened⟩ | connected
    · rcases member inside with old | rfl
      · exact .inl ⟨other,old,number,opened⟩
      · rw [silent] at opened
        contradiction
    · exact .inr connected
  have given {d : Int} (aimed : ∃ other ∈ s.connectors ++ [k], target other = some d) :
      ∃ other ∈ s.connectors, target other = some d := by
    obtain ⟨other,inside,aims⟩ := aimed
    rcases member inside with old | rfl
    · exact ⟨other,old,aims⟩
    · rw [unaimed] at aims
      contradiction
  have attached {p : XvfbSessionPtr} {x : XvfbSession} {a : Pid}
      (held : AttachedTo ⟨s.service,s.connectors ++ [k]⟩ p x a) : AttachedTo s p x a := by
    rcases held with ⟨other,inside,number,aims⟩ | alive
    · rcases member inside with old | rfl
      · exact .inl ⟨other,old,number,aims⟩
      · rw [unaimed] at aims
        contradiction
    · exact .inr alive
  refine ⟨?_,?_,?_,?_,?_,?_,?_,h.kept,?_,?_,?_⟩
  · rw [List.map_append,List.nodup_append]
    refine ⟨h.pids,by simp,?_⟩
    intro pid inside other last
    obtain ⟨old,there,rfl⟩ := List.mem_map.mp inside
    rw [List.mem_singleton.mp last]
    exact new old there
  · intro other inside listens
    rcases member inside with old | rfl
    · exact h.below other old listens
    · exact below
  · intro first inside second too listens listensToo display
    rcases member inside with old | rfl
    · rcases member too with oldToo | rfl
      · exact h.screen first old second oldToo listens listensToo display
      · exact absurd display (apart first old listens)
    · rcases member too with oldToo | rfl
      · exact absurd display.symm (apart second oldToo listensToo)
      · rfl
  · intro other inside user opened
    rcases member inside with old | rfl
    · exact h.users other old user opened
    · rw [silent] at opened
      contradiction
  · intro other inside d aims
    rcases member inside with old | rfl
    · exact h.targets other old d aims
    · rw [unaimed] at aims
      contradiction
  · intro other inside connected
    rcases member inside with old | rfl
    · exact h.connected other old connected
    · rw [phase] at connected
      contradiction
  · intro p pid alive
    obtain ⟨allocated,other,there,rest⟩ := h.reporters p pid alive
    exact ⟨allocated,other,List.mem_append_left _ there,rest⟩
  · intro p x q y upP upQ
    exact h.single p x q y ⟨upP.1,upP.2.imp_right given⟩ ⟨upQ.1,upQ.2.imp_right given⟩
  · intro user a b account first second
    exact h.claims user a b account (claims first) (claims second)
  · intro p x a b found account first second
    exact h.attached p x a b found account (attached first) (attached second)

/- A session once a connector has reported for it. -/
def afterReport (s : Service) (p : XvfbSessionPtr) (pid : Int) : Service :=
  (s.modify p fun x => {x with connectorId := pid,mode := .connected}).log (.connected p pid)

section
variable {pid : Int} {s : Service}

theorem reportSource (found : s.pool.get p = some x) (after : (afterReport s p pid).pool.get q = some y) :
    ∃ old, s.pool.get q = some old ∧ persona y = persona old ∧
      (q = p ∧ old = x ∧ y.mode = .connected ∧ y.connectorId = pid ∨ q ≠ p ∧ y = old) := by
  obtain ⟨old,before,⟨same,image⟩ | ⟨other,image⟩⟩ := SharedPool.modifySource after
  · subst same
    cases Option.some.inj (found.symm.trans before)
    exact ⟨x,before,by rw [image]; rfl,.inl ⟨rfl,rfl,by rw [image],by rw [image]⟩⟩
  · exact ⟨old,before,by rw [image],.inr ⟨Ne.symm other,image⟩⟩

theorem reportTarget (before : s.pool.get q = some y) :
    ∃ z, (afterReport s p pid).pool.get q = some z ∧ persona z = persona y :=
  SharedPool.Alike.target (SharedPool.alikeModify fun _ => rfl) before

theorem reportLive {other : Int} (alive : live q other (afterReport s p pid).history = true) :
    p = q ∧ pid = other ∨ live q other s.history = true := by
  have history : (afterReport s p pid).history = .connected p pid :: s.history := rfl
  rw [history,live] at alive
  split at alive
  · rename_i same
    exact .inl same
  · exact .inr alive

end

theorem reportUp (inside : k ∈ s.connectors) (aims : target k = some x.displayNum)
    (entry : (p,x) ∈ s.service.pool.entries) (up : Up ⟨afterReport s.service p k.pid.id,s.connectors⟩ q y) :
    ∃ z, Up s q z ∧ persona y = persona z := by
  obtain ⟨held,after⟩ := SharedPool.memEntries.mp up.1
  obtain ⟨old,earlier,same,⟨rfl,rfl,_⟩ | ⟨_,rfl⟩⟩ := reportSource (SharedPool.entriesGet entry) after
  · exact ⟨old,⟨entry,.inr ⟨k,inside,aims⟩⟩,same⟩
  · exact ⟨y,⟨SharedPool.memEntries.mpr ⟨held,earlier⟩,up.2⟩,rfl⟩

/- Whoever is attached after the report was attached before, the one that reports too. -/
theorem reportAttached (inside : k ∈ s.connectors) (aims : target k = some x.displayNum)
    (found : s.service.pool.get p = some x) {old : XvfbSession} (same : persona y = persona old)
    (place : q = p ∧ old = x ∧ y.mode = .connected ∧ y.connectorId = k.pid.id ∨ q ≠ p ∧ y = old) {pid : Pid}
    (attached : AttachedTo ⟨afterReport s.service p k.pid.id,s.connectors⟩ q y pid) : AttachedTo s q old pid := by
  rcases attached with ⟨other,there,number,given⟩ | alive
  · exact .inl ⟨other,there,number,personaDisplay same ▸ given⟩
  · rcases reportLive alive with ⟨equal,new⟩ | standing
    · obtain ⟨_,rfl,_⟩ | ⟨other,_⟩ := place
      · exact .inl ⟨k,inside,pidOfId new,aims⟩
      · exact absurd equal.symm other
    · exact .inr standing

theorem reportClaims (inside : k ∈ s.connectors) (opened : window s.service.signals k = some x.user)
    (alone : ∀ pid, AttachedTo s p x pid → pid = k.pid) (found : s.service.pool.get p = some x) {user : String}
    {a : Pid} (claim : Claims ⟨afterReport s.service p k.pid.id,s.connectors⟩ user a) : Claims s user a := by
  rcases claim with logging | ⟨q,y,there,owner,up,alive⟩
  · exact .inl logging
  · obtain ⟨held,after⟩ := SharedPool.memEntries.mp there
    obtain ⟨old,earlier,same,⟨rfl,rfl,_⟩ | ⟨other,rfl⟩⟩ := reportSource found after
    · have who : a = k.pid := by
        rcases reportLive alive with ⟨_,new⟩ | standing
        · exact pidOfId new.symm
        · exact alone a (.inr standing)
      rw [← owner,personaUser same,who]
      exact .inl ⟨k,inside,rfl,opened⟩
    · rcases reportLive alive with ⟨equal,_⟩ | standing
      · exact absurd equal.symm other
      · exact .inr ⟨q,y,SharedPool.memEntries.mpr ⟨held,earlier⟩,owner,up,standing⟩

/- The report of a connector that has been given the display. -/
theorem Locked.report (h : Locked s) (own : OwnDisplays s.service.pool) (inside : k ∈ s.connectors)
    (aims : target k = some x.displayNum) (past : pastLogin k.phase = true)
    (entry : (p,x) ∈ s.service.pool.entries) : Locked ⟨afterReport s.service p k.pid.id,s.connectors⟩ := by
  have found := SharedPool.entriesGet entry
  -- the connector logs in the user of the session, and nobody else is attached to it
  obtain ⟨opened,account⟩ : window s.service.signals k = some x.user ∧ x.user ≠ ltsmUserConn := by
    obtain ⟨q,y,there,display,opened⟩ := h.targets k inside _ aims
    obtain ⟨rfl,rfl⟩ := SharedPool.uniqueSame own there found display
    exact ⟨opened,h.users k inside _ opened⟩
  have alone (pid : Pid) (attached : AttachedTo s p x pid) : pid = k.pid :=
    h.attached p x pid k.pid found account attached (.inl ⟨k,inside,rfl,aims⟩)
  refine ⟨h.pids,h.below,h.screen,h.users,?_,?_,?_,?_,?_,?_,?_⟩
  · intro other there d given
    obtain ⟨q,y,before,display,logs⟩ := h.targets other there d given
    obtain ⟨z,after,same⟩ := reportTarget before
    exact ⟨q,z,after,(personaDisplay same).trans display,by rw [personaUser same]; exact logs⟩
  · intro other there phase
    obtain ⟨q,y,before,display,user⟩ := h.connected other there phase
    obtain ⟨z,after,same⟩ := reportTarget before
    exact ⟨q,z,after,(personaDisplay same).trans display,personaUser same ▸ user⟩
  · intro q pid alive
    rcases reportLive alive with ⟨rfl,rfl⟩ | old
    · exact ⟨SharedPool.allocatedModify.mpr (SharedPool.getAllocated found),k,inside,rfl,past⟩
    · obtain ⟨allocated,rest⟩ := h.reporters q pid old
      exact ⟨SharedPool.allocatedModify.mpr allocated,rest⟩
  · intro q y pid after up alive
    obtain ⟨old,before,same,⟨rfl,rfl,mode,connector⟩ | ⟨other,rfl⟩⟩ := reportSource found after
    · rw [connector]
      refine ⟨mode,?_⟩
      rcases reportLive alive with ⟨_,new⟩ | earlier
      · exact new
      · obtain ⟨_,reporter,_,number,_⟩ := h.reporters q pid earlier
        rw [← number,alone reporter.pid (.inr (number ▸ earlier))]
    · rcases reportLive alive with ⟨equal,_⟩ | earlier
      · exact absurd equal.symm other
      · exact h.kept q y pid before up earlier
  · intro q y r z upQ upR user account
    obtain ⟨y₀,oldQ,sameQ⟩ := reportUp inside aims entry upQ
    obtain ⟨z₀,oldR,sameR⟩ := reportUp inside aims entry upR
    apply h.single q y₀ r z₀ oldQ oldR
    · rw [← personaUser sameQ,← personaUser sameR,user]
    · exact personaUser sameQ ▸ account
  · intro user a b account first second
    exact h.claims user a b account (reportClaims inside opened alone found first)
      (reportClaims inside opened alone found second)
  · intro q y a b after account first second
    obtain ⟨old,earlier,same,place⟩ := reportSource found after
    exact h.attached q old a b earlier (personaUser same ▸ account)
      (reportAttached inside aims found same place first) (reportAttached inside aims found same place second)

/-! What a step of the service takes away. -/

theorem subsidesUnmoved {s : Service} (same : Unmoved s t) : Subsides s t := by
  have sessions : SharedPool.Alike persona s.pool t.pool := by
    intro p
    have image := congrArg (Option.map fun v : View => (⟨v.user,v.displayNum,v.policy⟩ : Persona)) (same.sessions p)
    rw [Option.map_map,Option.map_map] at image
    exact image
  refine ⟨sessions,fun p held => same.slots ▸ held,?_,same.display,fun p pid alive => unmovedLive same ▸ alive⟩
  intro p x y before after up
  obtain ⟨old,found,equal⟩ := same.source after
  cases Option.some.inj (before.symm.trans found)
  rw [← viewMode equal]
  exact up

theorem keptUnmoved {s : Service} (same : Unmoved s t) (h : ReportsKept s) : ReportsKept t := by
  intro p y pid found up alive
  obtain ⟨x,before,equal⟩ := same.source found
  rw [viewMode equal] at up ⊢
  rw [viewConnector equal]
  exact h p x pid before up (unmovedLive same ▸ alive)

theorem Subsides.trans {s : Service} (first : Subsides s t) (second : Subsides t u) : Subsides s u := by
  refine ⟨first.sessions.trans second.sessions,fun p held => first.slots p (second.slots p held),?_,
    first.display.trans second.display,fun p pid alive => first.reports p pid (second.reports p pid alive)⟩
  intro p x z before after up
  obtain ⟨y,between,_⟩ := first.sessions.target before
  exact first.modes p x y before between (second.modes p y z between after up)

theorem screensUnmoved {s : Service} (same : Unmoved s t) (shown : .loginScreen p ∈ t.history) :
    .loginScreen p ∈ s.history := by
  have kept : .loginScreen p ∈ t.history.filter attaches := List.mem_filter.mpr ⟨shown,rfl⟩
  rw [same.history] at kept
  exact List.mem_of_mem_filter kept

/- A session changes in place, and is up afterwards only if it was before. -/
theorem subsidesModify {s : Service} {f : XvfbSession → XvfbSession} (keeps : ∀ x, persona (f x) = persona x)
    (modes : ∀ x, s.pool.get p = some x → (f x).mode ≠ .shutdown → x.mode ≠ .shutdown) :
    Subsides s (s.modify p f) := by
  refine ⟨SharedPool.alikeModify keeps,fun _ => id,?_,le_rfl,fun _ _ => id⟩
  intro q x y before after up
  obtain ⟨old,found,⟨same,image⟩ | ⟨_,image⟩⟩ := SharedPool.modifySource after
  · subst same
    cases Option.some.inj (before.symm.trans found)
    rw [image] at up
    exact modes x before up
  · cases Option.some.inj (before.symm.trans found)
    rw [image] at up
    exact up

theorem keptModify {s : Service} {f : XvfbSession → XvfbSession} (h : ReportsKept s)
    (here : ∀ x pid, s.pool.get p = some x → (f x).mode ≠ .shutdown → live p pid s.history = true →
      (f x).mode = .connected ∧ (f x).connectorId = pid) : ReportsKept (s.modify p f) := by
  intro q y pid found up alive
  obtain ⟨x,before,⟨same,image⟩ | ⟨_,image⟩⟩ := SharedPool.modifySource found
  · subst same
    rw [image] at up ⊢
    exact here x pid before up alive
  · rw [image] at up ⊢
    exact h q x pid before up alive

/- An event after which no more reports stand than before. -/
theorem logSubsides {s : Service} {event : Event}
    (fewer : ∀ q pid, live q pid (event :: s.history) = true → live q pid s.history = true) :
    Subsides s (s.log event) := by
  refine ⟨.refl _,fun _ => id,?_,le_rfl,fewer⟩
  intro q x y before after up
  cases Option.some.inj (before.symm.trans after)
  exact up

theorem liveTerminated {history : List Event} {pid : Int} (q : XvfbSessionPtr) (id : Int)
    (alive : live q id (.terminated p pid :: history) = true) : live q id history = true := by
  rw [live] at alive
  split at alive
  · contradiction
  · exact alive

theorem liveTimedOut {history : List Event} {pid : Int} (q : XvfbSessionPtr) (id : Int)
    (alive : live q id (.timedOut p pid :: history) = true) : live q id history = true := by
  rw [live] at alive
  split at alive
  · contradiction
  · exact alive

/- What a step leaves of the reports, and that no login screen comes up. -/
structure Lost (s t : Service) : Prop where
  fewer : Subsides s t
  kept : ReportsKept t
  screens : ∀ p, .loginScreen p ∈ t.history → .loginScreen p ∈ s.history

theorem lostUnmoved {s : Service} (h : ReportsKept s) (same : Unmoved s t) : Lost s t :=
  ⟨subsidesUnmoved same,keptUnmoved same h,fun _ => screensUnmoved same⟩

theorem Lost.trans {s : Service} (first : Lost s t) (second : Lost t u) : Lost s u :=
  ⟨first.fewer.trans second.fewer,second.kept,fun p shown => first.screens p (second.screens p shown)⟩

theorem lostLog {s : Service} (h : ReportsKept s) (event : Event) (other : ∀ q, event ≠ .loginScreen q)
    (fewer : ∀ q pid, live q pid (event :: s.history) = true → live q pid s.history = true) :
    Lost s (s.log event) := by
  refine ⟨logSubsides fewer,fun q y pid there up alive => h q y pid there up (fewer q pid alive),?_⟩
  intro q shown
  rcases List.mem_cons.mp shown with new | old
  · exact absurd new.symm (other q)
  · exact old

/- A session is detached when the one report for it that may stand is withdrawn. -/
theorem lostDetach {s : Service} {event : Event} (logged : Lost s (s.log event)) (found : s.pool.get p = some x)
    (online : x.mode = .connected) (gone : live p x.connectorId (event :: s.history) = false) :
    Lost s ((s.log event).modify p detach) := by
  refine logged.trans ⟨subsidesModify (fun _ => rfl) ?_,keptModify logged.kept ?_,fun _ => id⟩
  · intro y there _
    cases Option.some.inj (found.symm.trans there)
    simp [online]
  · intro y pid there _ alive
    cases Option.some.inj (found.symm.trans there)
    have standing := logged.kept p x pid found (by simp [online]) alive
    rw [standing.2] at gone
    exact absurd (gone.symm.trans alive) (by simp)

theorem lostBackground {s : Service} (h : ReportsKept s) (moved : Background s t) : Lost s t := by
  cases moved with
  | unmoved same => exact lostUnmoved h same
  | shutDown p x found up same =>
    have shut : Lost s (s.modify p shutDown) :=
      ⟨subsidesModify (shutDownKeeps persona fun _ _ _ => rfl) fun y _ up => absurd (shutDownMode y) up,
        keptModify h fun y _ _ up => absurd (shutDownMode y) up,fun _ => id⟩
    exact shut.trans (lostUnmoved shut.kept same)
  | removed display same =>
    have removed : Lost s {s with pool := removeDisplaySession display s.pool} := by
      refine ⟨⟨.refl _,fun _ => SharedPool.releaseSlots,?_,le_rfl,fun _ _ => id⟩,h,fun _ => id⟩
      intro q a b before after up
      cases Option.some.inj (before.symm.trans after)
      exact up
    exact removed.trans (lostUnmoved removed.kept same)
  | timedOut p x inside online same =>
    have logged := lostLog h (.timedOut p x.connectorId) (by simp) liveTimedOut
    have detached := lostDetach logged (SharedPool.entriesGet inside) online (by simp [live])
    exact detached.trans (lostUnmoved detached.kept same)

/- A connector ends that nobody else is connected in place of. -/
theorem lostTerminated {s : Service} (h : ReportsKept s) (display : Int) (pid : Pid)
    (apart : ∀ p x, findDisplaySession s.pool display = some (p,x) → x.mode = .connected → x.connectorId = pid.id) :
    Lost s (busConnectorTerminated display pid.id s) := by
  have other : pid.id ≠ -1 := by
    have := pid.positive
    omega
  unfold busConnectorTerminated reported
  simp only [ne_eq,other,not_false_eq_true,if_true]
  cases found : findDisplaySession s.pool display with
  | none => exact lostUnmoved h (.refl s)
  | some entry =>
    obtain ⟨p,x⟩ := entry
    have logged := lostLog h (.terminated p pid.id) (by simp) liveTerminated
    dsimp only
    split
    · exact logged.trans (lostUnmoved logged.kept (unmovedPost _ _))
    split
    · rename_i online
      have detached := lostDetach logged (displaySource found).2.1 online (by simp [live,apart p x found online])
      exact detached.trans (lostUnmoved detached.kept (unmovedEmit _ _))
    · exact logged

end
end Ltsm.LoginClaims
