import Ltsm.SessionMoves

/-! The registry of sessions while every request is handled to its end before the next. The
environments and options that a start takes over from the login screen are set by other requests,
so there are none of them here. -/
namespace Ltsm.SessionRegistry
open Library XvfbSessions DBusAdaptor SessionMoves

/- A shutdown is asked for over the bus, or by a timer or an authentication that has the session. -/
inductive Request
  | startLoginSession (launch : Launch) (connectorId : Int) (remoteAddr connType : String)
  | startUserSession (launch : Launch) (socket : Bool) (oldScreen connectorId : Int)
      (userName remoteAddr connType : String)
  | shutdownDisplay (display : Int)
  | displayShutdown (xvfb : XvfbSessionPtr) (emitSignal : Bool)
  | removeDisplaySession (screen : Int)

/- `free_display_` is set from `display:init`. -/
def opened (slots init : Nat) : Service := {DBusAdaptor.start with pool := SharedPool.empty slots, freeDisplay := init}

def begins (c : Config) (s : Service) : Request → Service
  | .startLoginSession launch connectorId remoteAddr connType =>
    (busStartLoginSession c launch connectorId remoteAddr connType s).2
  | .startUserSession launch socket oldScreen connectorId userName remoteAddr connType =>
    (busStartUserSession c launch socket oldScreen connectorId userName remoteAddr connType s).2
  | .shutdownDisplay display => busShutdownDisplay display s
  | .displayShutdown xvfb emitSignal => DBusAdaptor.displayShutdown xvfb emitSignal s
  | .removeDisplaySession screen => {s with pool := XvfbSessions.removeDisplaySession screen s.pool}

/- What a request has posted is run, and what that posts is run. -/
def handle (c : Config) (env : Environment) (s : Service) (request : Request) : Service :=
  exec c 0 env (exec c 0 env (begins c s request))

/- The display that a start answers with. -/
def answer (c : Config) (s : Service) : Request → Option Int
  | .startLoginSession launch connectorId remoteAddr connType =>
    some (busStartLoginSession c launch connectorId remoteAddr connType s).1
  | .startUserSession launch socket oldScreen connectorId userName remoteAddr connType =>
    some (busStartUserSession c launch socket oldScreen connectorId userName remoteAddr connType s).1
  | _ => none

structure Sound (slots : Nat) (s : Service) : Prop where
  displays : (s.pool.entries.map fun e => e.2.displayNum).Nodup
  users : ∀ user, user ≠ ltsmUserConn →
    (s.pool.entries.filter fun e => e.2.user = user ∧ e.2.mode ≠ .shutdown).length ≤ 1
  bounded : s.pool.entries.length ≤ slots

def FailsQuietly (c : Config) (env : Environment) (s : Service) : Prop :=
  ∀ request, answer c s request = some (-1) → (handle c env s request).pool = s.pool

def RemovesOne (s : Service) : Prop := ∀ screen,
  (removeDisplaySession screen s.pool).entries = s.pool.entries.filter fun e => e.2.displayNum ≠ screen

/- Two sessions of one user are login screens. -/
def Shared (e f : XvfbSessionPtr × XvfbSession) : Prop := e.2.user = f.2.user → e.2.user = ltsmUserConn

structure Kept (slots : Nat) (s : Service) : Prop where
  size : s.pool.slots.length = slots
  held : ∀ p, some p ∈ s.pool.slots → s.pool.Allocated p
  idle : s.tasks = []
  natural : 0 ≤ s.freeDisplay
  fresh : ∀ e ∈ s.pool.entries, e.2.displayNum < s.freeDisplay
  displays : (s.pool.entries.map fun e => e.2.displayNum).Nodup
  users : s.pool.entries.Pairwise Shared
  up : ∀ e ∈ s.pool.entries, e.2.mode ≠ .shutdown

section
variable {slots : Nat} {s : Service} {c : Config} {env : Environment} {p : XvfbSessionPtr} {x : XvfbSession}

theorem oneOf {α : Type*} {R : α → α → Prop} {l : List α} (apart : l.Pairwise R) (never : ∀ a ∈ l, ∀ b ∈ l, ¬R a b) :
    l.length ≤ 1 := by
  match l with
  | [] | [_] => simp
  | a :: b :: rest =>
    have related := (List.pairwise_cons.mp apart).1 b List.mem_cons_self
    exact absurd related (never a List.mem_cons_self b (List.mem_cons_of_mem _ List.mem_cons_self))

theorem keptSound (kept : Kept slots s) : Sound slots s := by
  refine ⟨kept.displays,fun user other => ?_,?_⟩
  · refine oneOf (kept.users.filter _) fun e first f second shared => ?_
    rw [List.mem_filter,decide_eq_true_eq] at first second
    obtain ⟨_,rfl,_⟩ := first
    exact other (shared second.2.1.symm)
  · rw [← kept.size]
    exact List.length_filterMap_le _ _

theorem removesOne (kept : Kept slots s) : RemovesOne s := fun screen => by
  unfold removeDisplaySession
  rw [SharedPool.entriesRelease]
  exact @eraseUnique _ Int _ (fun e : XvfbSessionPtr × XvfbSession => e.2.displayNum) _ screen kept.displays

theorem keptOpened (slots init : Nat) : Kept slots (opened slots init) := by
  have none : (opened slots init).pool.entries = [] := by
    refine List.filterMap_eq_nil_iff.mpr fun slot inside => ?_
    rw [List.eq_of_mem_replicate inside]
    rfl
  refine ⟨List.length_replicate,fun p held => ?_,rfl,Int.natCast_nonneg init,?_,?_,?_,?_⟩
  · exact absurd (List.eq_of_mem_replicate held) (Option.some_ne_none p)
  all_goals rw [none]
  · exact fun e inside => absurd inside List.not_mem_nil
  · exact List.nodup_nil
  · exact List.Pairwise.nil
  · exact fun e inside => absurd inside List.not_mem_nil

/- Nothing of a session that matters to the registry. -/
structure Keeps (f : XvfbSession → XvfbSession) : Prop where
  displayNum : ∀ x, (f x).displayNum = x.displayNum
  user : ∀ x, (f x).user = x.user
  mode : ∀ x, (f x).mode = x.mode

theorem keptModify {f : XvfbSession → XvfbSession} (keeps : Keeps f) (p : XvfbSessionPtr) (kept : Kept slots s) :
    Kept slots (s.modify p f) := by
  have display (e : XvfbSessionPtr × XvfbSession) : (if p = e.1 then f e.2 else e.2).displayNum = e.2.displayNum := by
    split
    · exact keeps.displayNum _
    · rfl
  have user (e : XvfbSessionPtr × XvfbSession) : (if p = e.1 then f e.2 else e.2).user = e.2.user := by
    split
    · exact keeps.user _
    · rfl
  have mode (e : XvfbSessionPtr × XvfbSession) : (if p = e.1 then f e.2 else e.2).mode = e.2.mode := by
    split
    · exact keeps.mode _
    · rfl
  refine ⟨kept.size,fun q held => SharedPool.allocatedModify.mpr (kept.held q held),kept.idle,kept.natural,?_,?_,?_,?_⟩
  all_goals rw [Service.modifyPool,SharedPool.entriesModify]
  · intro e inside
    obtain ⟨old,before,rfl⟩ := List.mem_map.mp inside
    rw [display]
    exact kept.fresh old before
  · have same : (s.pool.entries.map fun e => (e.1,if p = e.1 then f e.2 else e.2)).map (fun e => e.2.displayNum) =
        s.pool.entries.map fun e => e.2.displayNum := List.map_map.trans (List.map_congr_left fun e _ => display e)
    rw [same]
    exact kept.displays
  · refine List.pairwise_map.mpr (kept.users.imp fun {a b} shared => ?_)
    unfold Shared
    rw [user,user]
    exact shared
  · intro e inside
    obtain ⟨old,before,rfl⟩ := List.mem_map.mp inside
    rw [mode]
    exact kept.up old before

/- The same sessions of the registry or fewer. -/
theorem keptFewer {t : Service} (kept : Kept slots s) (size : t.pool.slots.length = slots)
    (held : ∀ p, some p ∈ t.pool.slots → t.pool.Allocated p) (idle : t.tasks = [])
    (display : s.freeDisplay ≤ t.freeDisplay) (fewer : t.pool.entries.Sublist s.pool.entries) : Kept slots t := by
  refine ⟨size,held,idle,kept.natural.trans display,fun e inside => ?_,?_,?_,?_⟩
  · exact (kept.fresh e (fewer.subset inside)).trans_le display
  · exact kept.displays.sublist (fewer.map _)
  · exact kept.users.sublist fewer
  · exact fun e inside => kept.up e (fewer.subset inside)

theorem keptAside {t : Service} (kept : Kept slots s) (pool : t.pool = s.pool) (tasks : t.tasks = s.tasks)
    (display : s.freeDisplay ≤ t.freeDisplay) : Kept slots t := by
  refine keptFewer kept ?_ ?_ (tasks.trans kept.idle) display ?_
  all_goals rw [pool]
  · exact kept.size
  · exact kept.held

theorem keptRemove (screen : Int) (kept : Kept slots s) :
    Kept slots {s with pool := XvfbSessions.removeDisplaySession screen s.pool} := by
  refine keptFewer kept ?_ (fun p held => kept.held p (SharedPool.releaseSlots held)) kept.idle le_rfl ?_
  · exact (lengthUpdate _).trans kept.size
  · exact (removesOne kept screen).symm ▸ List.filter_sublist

/- A session that starts has a display of its own and finds no other of its user. -/
theorem keptLaunch (kept : Kept slots s) (room : s.pool.full = false) (display : x.displayNum = s.freeDisplay)
    (up : x.mode ≠ .shutdown) (alone : x.user = ltsmUserConn ∨ ∀ e ∈ s.pool.entries, e.2.user ≠ x.user) :
    Kept slots (s.launch x) := by
  have entries := SharedPool.entriesInsert (a := x) room kept.held
  have each {P : XvfbSessionPtr × XvfbSession → Prop} (new : P (s.pool.heap.length,x))
      (old : ∀ e ∈ s.pool.entries, P e) : ∀ e ∈ (s.launch x).pool.entries, P e := fun e inside => by
    rcases List.mem_cons.mp (entries.mem_iff.mp inside) with rfl | before
    · exact new
    · exact old e before
  refine ⟨(lengthUpdate _).trans kept.size,fun p held => ?_,kept.idle,?_,?_,?_,?_,?_⟩
  · change p < (s.pool.heap ++ [x]).length
    rw [List.length_append,List.length_singleton]
    rcases SharedPool.insertSlots held with old | new
    · exact Nat.lt_succ_of_lt (kept.held p old)
    · exact Option.some.inj new ▸ Nat.lt_succ_self _
  · exact kept.natural.trans (Int.le_add_one le_rfl)
  · refine each ?_ fun e inside => (kept.fresh e inside).trans (Int.lt_succ _)
    exact display ▸ Int.lt_succ _
  · refine (entries.map _).nodup_iff.mpr (List.nodup_cons.mpr ⟨fun inside => ?_,kept.displays⟩)
    obtain ⟨e,before,same⟩ := List.mem_map.mp inside
    exact absurd (same.trans display) (kept.fresh e before).ne
  · have both : ∀ {e f}, Shared e f → Shared f e := fun shared same => same.trans (shared same.symm)
    refine (entries.pairwise_iff both).mpr (List.pairwise_cons.mpr ⟨fun e before same => ?_,kept.users⟩)
    rcases alone with login | none
    · exact login
    · exact absurd same.symm (none e before)
  · exact each up kept.up

theorem newSessionRoom {launch : Launch} {username pass : String} {t : Service}
    (made : runNewDisplaySession c launch username pass s = (some p,t)) : s.pool.full = false := by
  unfold runNewDisplaySession at made
  split at made
  · simp at made
  split at made
  · simp at made
  split at made
  · simp at made
  · exact Bool.eq_false_iff.mpr (by assumption)

/- What a start leaves and answers. -/
structure Begun (slots : Nat) (s : Service) (result : Int × Service) : Prop where
  kept : Kept slots result.2
  failed : result.1 = -1 → result.2.pool = s.pool

theorem failedBegun {display : Int} (kept : Kept slots s) (later : s.freeDisplay ≤ display) :
    Begun slots s (-1,{s with freeDisplay := display}) := ⟨keptAside kept rfl rfl later,fun _ => rfl⟩

theorem loginBegun (kept : Kept slots s) (launch : Launch) (connectorId : Int) (remoteAddr connType : String) :
    Begun slots s (busStartLoginSession c launch connectorId remoteAddr connType s) := by
  unfold busStartLoginSession
  obtain ⟨display,later,same⟩ | ⟨x,launched,same⟩ := newSessionSource (c := c) launch ltsmUserConn "" s
  · rw [same]
    exact failedBegun kept later
  · have room := newSessionRoom same
    rw [same]
    dsimp only
    rw [launchModify]
    have up : x.mode ≠ .shutdown := by
      rw [launched.mode]
      simp
    have started := keptLaunch (x := {x with remoteAddr, conntype := connType, connectorId}) kept room
      launched.displayNum up (.inl launched.user)
    refine ⟨keptAside started rfl rfl le_rfl,fun failed => ?_⟩
    have natural := kept.natural
    dsimp only at failed
    omega

theorem userBegun (kept : Kept slots s) (launch : Launch) (socket : Bool) (oldScreen connectorId : Int)
    (userName remoteAddr connType : String) :
    Begun slots s (busStartUserSession c launch socket oldScreen connectorId userName remoteAddr connType s) := by
  have moved : Keeps moveEncryption := ⟨fun _ => rfl,fun _ => rfl,fun _ => rfl⟩
  unfold busStartUserSession
  cases found : findDisplaySession s.pool oldScreen with
  | none => exact failedBegun kept le_rfl
  | some entry =>
    obtain ⟨login,loginSess⟩ := entry
    dsimp only
    cases sessions : findUserSessions s.pool userName with
    | cons front rest =>
      obtain ⟨old,oldSess⟩ := front
      dsimp only
      split
      · rename_i alive
        have continued : Keeps (continueScreen loginSess connectorId remoteAddr connType) :=
          ⟨fun _ => rfl,fun _ => rfl,fun _ => rfl⟩
        refine ⟨keptAside (keptModify moved login (keptModify continued old kept)) rfl rfl le_rfl,fun failed => ?_⟩
        have positive : 0 < oldSess.displayNum := by
          unfold checkDisplaySessionAlive at alive
          simp_all
        dsimp only at failed
        omega
      · exact failedBegun kept le_rfl
    | nil =>
      dsimp only
      obtain ⟨display,later,same⟩ | ⟨x,launched,same⟩ :=
        newSessionSource (c := c) launch userName loginSess.password s
      · rw [same]
        exact failedBegun kept later
      · have room := newSessionRoom same
        -- whoever is in the registry is up, so the search has seen every session of the user
        have alone : ∀ e ∈ s.pool.entries, e.2.user ≠ userName := fun e inside own => by
          have seen : (e.1,e.2) ∈ findUserSessions s.pool userName :=
            memUserSessions.mpr ⟨inside,kept.up e inside,own⟩
          rw [sessions] at seen
          exact absurd seen List.not_mem_nil
        rw [same]
        dsimp only
        rw [launchModify]
        have started := keptLaunch (x := updateScreen c loginSess connectorId remoteAddr connType x) kept room
          launched.displayNum (by simp [updateScreen]) (.inr fun e inside => launched.user ▸ alone e inside)
        refine ⟨keptAside (keptModify moved login started) rfl rfl le_rfl,fun failed => ?_⟩
        have natural := kept.natural
        dsimp only at failed
        omega

/-! What a shutdown comes to. -/

theorem execIdle (idle : s.tasks = []) : exec c 0 env s = s := by
  unfold exec
  rw [idle]
  rfl

theorem execPosted {task : Task} (idle : s.tasks = []) : exec c 0 env (s.post task) = runTask c env s task := by
  obtain ⟨pool,free,disabled,tasks,signals,history⟩ := s
  obtain rfl : tasks = [] := idle
  rfl

/- Its scripts run, and the display is taken out of the registry. -/
theorem shutdownSource (c : Config) (env : Environment) (idle : s.tasks = []) (p : XvfbSessionPtr) (emitSignal : Bool) :
    exec c 0 env (displayShutdown p emitSignal s) = s ∨
      ∃ x t, s.pool.get p = some x ∧ exec c 0 env (displayShutdown p emitSignal s) = t ∧ t.tasks = [] ∧
        t.freeDisplay = s.freeDisplay ∧
        t.pool = XvfbSessions.removeDisplaySession x.displayNum (s.pool.modify p shutDown) := by
  unfold displayShutdown
  cases found : s.pool.get p with
  | none => exact .inl (execIdle idle)
  | some x =>
    dsimp only
    split
    · exact .inl (execIdle idle)
    refine .inr ⟨x,_,rfl,rfl,?_⟩
    have display := shutDownKeeps XvfbSession.displayNum (fun _ _ _ => rfl) x
    have shut := SharedPool.getModifySelf (f := shutDown) found
    have removed {t : Service} (tasks : t.tasks = []) (pool : t.pool = s.pool.modify p shutDown)
        (free : t.freeDisplay = s.freeDisplay) : (exec c 0 env (t.post (.displayRemove p))).tasks = [] ∧
          (exec c 0 env (t.post (.displayRemove p))).freeDisplay = s.freeDisplay ∧
          (exec c 0 env (t.post (.displayRemove p))).pool =
            XvfbSessions.removeDisplaySession x.displayNum (s.pool.modify p shutDown) := by
      rw [execPosted tasks]
      dsimp only [runTask,displayRemove]
      rw [pool,shut]
      dsimp only [Service.emit]
      rw [display]
      exact ⟨tasks,free,rfl⟩
    refine removed ?_ ?_ ?_
    · split <;> split <;> exact idle
    · split <;> split <;> rfl
    · split <;> split <;> rfl

theorem keptShutdown (c : Config) (env : Environment) (kept : Kept slots s) (p : XvfbSessionPtr) (emitSignal : Bool) :
    Kept slots (exec c 0 env (displayShutdown p emitSignal s)) := by
  obtain same | ⟨x,t,found,same,idle,free,pool⟩ := shutdownSource c env kept.idle p emitSignal
  · rw [same]
    exact kept
  rw [same]
  refine keptFewer kept ?_ (fun q held => ?_) idle free.ge ?_
  · rw [pool]
    exact (lengthUpdate _).trans kept.size
  · rw [pool] at held ⊢
    have old : some q ∈ (s.pool.modify p shutDown).slots := SharedPool.releaseSlots held
    exact SharedPool.allocatedModify.mpr (kept.held q old)
  · rw [pool]
    have taken := SharedPool.entriesTaken (f := shutDown) found
      (shutDownKeeps XvfbSession.displayNum (fun _ _ _ => rfl) x) kept.displays
    exact taken.symm ▸ List.filter_sublist

theorem handleBegun {result : Int × Service} (begun : Begun slots s result) :
    exec c 0 env (exec c 0 env result.2) = result.2 := by
  have idle := begun.kept.idle
  rw [execIdle idle,execIdle idle]

theorem handleKept (c : Config) (env : Environment) (request : Request) (kept : Kept slots s) : Kept slots (handle c env s request) := by
  unfold handle
  cases request with
  | startLoginSession launch connectorId remoteAddr connType =>
    have begun := loginBegun (c := c) kept launch connectorId remoteAddr connType
    dsimp only [begins]
    rw [handleBegun begun]
    exact begun.kept
  | startUserSession launch socket oldScreen connectorId userName remoteAddr connType =>
    have begun := userBegun (c := c) kept launch socket oldScreen connectorId userName remoteAddr connType
    dsimp only [begins]
    rw [handleBegun begun]
    exact begun.kept
  | shutdownDisplay display =>
    dsimp only [begins]
    obtain same | ⟨p,x,_,same⟩ := sessionSource display (fun xvfb => .post (.displayShutdown xvfb true)) s
    · unfold busShutdownDisplay
      rw [same,execIdle kept.idle,execIdle kept.idle]
      exact kept
    · unfold busShutdownDisplay
      rw [same,execPosted kept.idle]
      exact keptShutdown c env kept p true
  | displayShutdown p emitSignal =>
    have shut := keptShutdown c env kept p emitSignal
    dsimp only [begins]
    rw [execIdle shut.idle]
    exact shut
  | removeDisplaySession screen =>
    dsimp only [begins]
    have removed := keptRemove screen kept
    rw [execIdle removed.idle,execIdle removed.idle]
    exact removed

theorem failsQuietly (kept : Kept slots s) : FailsQuietly c env s := fun request failed => by
  unfold handle
  cases request with
  | startLoginSession launch connectorId remoteAddr connType =>
    have begun := loginBegun (c := c) kept launch connectorId remoteAddr connType
    dsimp only [begins]
    rw [handleBegun begun]
    exact begun.failed (Option.some.inj failed)
  | startUserSession launch socket oldScreen connectorId userName remoteAddr connType =>
    have begun := userBegun (c := c) kept launch socket oldScreen connectorId userName remoteAddr connType
    dsimp only [begins]
    rw [handleBegun begun]
    exact begun.failed (Option.some.inj failed)
  | shutdownDisplay | displayShutdown | removeDisplaySession => cases failed

end

/- Whatever is asked, in whatever order. -/
theorem registrySound (c : Config) (env : Environment) (slots init : Nat) (requests : List Request) :
    Always (handle c env) (fun s => Sound slots s ∧ FailsQuietly c env s ∧ RemovesOne s) (opened slots init) requests :=
  fun first _ => by
    have kept := runInvariant (fun _ request => handleKept c env request) (keptOpened slots init) first
    exact ⟨keptSound kept,failsQuietly kept,removesOne kept⟩

end Ltsm.SessionRegistry
