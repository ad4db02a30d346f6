import Ltsm.SessionMoves

/-! What has been posted is run some time. A step only posts, but for the task that it runs; so a display
that is to be shut down goes on to be, until it is out of the pool. -/
namespace Ltsm.SessionTasks
open Library XvfbSessions DBusAdaptor SessionMoves

/- A part of a step that runs no task. -/
def Posts (s t : Service) : Prop := s.tasks <+: t.tasks

section
variable {s t u : Service} {p : XvfbSessionPtr} {x : XvfbSession} {c : Config} {env : Environment}

theorem Posts.refl (s : Service) : Posts s s := List.prefix_rfl

theorem Posts.trans (first : Posts s t) (second : Posts t u) : Posts s u := List.IsPrefix.trans first second

theorem postsSame (same : t.tasks = s.tasks) : Posts s t := ⟨[],by rw [List.append_nil,same]⟩

theorem postsTask (task : Task) (s : Service) : Posts s (s.post task) := List.prefix_append _ _

theorem postsFold {α : Type*} {f : Service → α → Service} (each : ∀ s a, Posts s (f s a)) (items : List α)
    (s : Service) : Posts s (items.foldl f s) := by
  induction items generalizing s with
  | nil => exact .refl s
  | cons a rest ih => exact (each s a).trans (ih (f s a))

theorem onSessionPosts {f : XvfbSessionPtr → Service → Service} (display : Int) (each : ∀ p, Posts s (f p s)) :
    Posts s (onSession display f s) := by
  obtain same | ⟨p,_,_,same⟩ := sessionSource display f s
  · exact postsSame (congrArg Service.tasks same)
  · rw [same]
    exact each p

theorem shutdownDisplayPosts (display : Int) (s : Service) : Posts s (busShutdownDisplay display s) :=
  onSessionPosts display fun _ => postsTask _ s

theorem authSuccessPosts (login : String) (s : Service) : Posts s (authSuccess c env p x login s) := by
  unfold authSuccess
  have reset : Posts s (if 0 < c.loginFailuresConf then s.modify p resetFailures else s) := by
    split
    · exact postsSame rfl
    · exact .refl s
  generalize (if 0 < c.loginFailuresConf then s.modify p resetFailures else s) = r at reset ⊢
  refine reset.trans ?_
  dsimp only
  split
  · exact postsSame rfl
  · split
    · exact postsSame rfl
    · exact Posts.trans (postsSame rfl) (postsTask _ ((r.log _).emit _))
    · exact postsSame rfl

theorem pamAuthenticatePosts (login password : String) (token : Bool) (s : Service) :
    Posts s (pamAuthenticate c env p x login password token s) := by
  unfold pamAuthenticate
  split
  · exact .refl s
  · split
    · exact postsSame rfl
    · split
      · exact authSuccessPosts login s
      · exact postsTask _ s

theorem pamVerdictPosts (login password : String) (s : Service) :
    Posts s (pamVerdict c env p x login password s) := by
  unfold pamVerdict
  split
  · exact postsTask _ _
  · dsimp only
    split
    · exact postsTask _ _
    · exact postsSame rfl

theorem pamAccountPosts (login : String) (s : Service) : Posts s (pamAccount c env p x login s) := by
  unfold pamAccount
  split
  · exact authSuccessPosts login s
  · exact postsFold (fun s _ => shutdownDisplayPosts _ s) _ s

theorem terminatedPosts (display connectorId : Int) (s : Service) : Posts s (busConnectorTerminated display connectorId s) := by
  unfold busConnectorTerminated
  split
  · exact .refl s
  · rename_i p x _
    have logged : Posts s (reported p x connectorId s) := by
      unfold reported
      split
      · exact postsSame rfl
      · split
        · exact postsSame rfl
        · exact .refl s
    refine logged.trans ?_
    dsimp only
    split
    · exact postsTask _ _
    · split
      · exact postsSame rfl
      · exact .refl _

theorem displayShutdownPosts (emitSignal : Bool) (s : Service) : Posts s (displayShutdown p emitSignal s) := by
  unfold displayShutdown
  split
  · exact .refl s
  · rename_i x _
    split
    · exact .refl s
    · have killed : Posts s (if x.connectorId ≠ 0 ∧ x.mode ≠ .login then s.log (.killed x.connectorId) else s) := by
        split
        · exact postsSame rfl
        · exact .refl s
      generalize (if x.connectorId ≠ 0 ∧ x.mode ≠ .login then s.log (.killed x.connectorId) else s) = r at killed ⊢
      refine killed.trans (Posts.trans ?_ (postsTask _ _))
      split
      · exact postsSame rfl
      · exact postsSame rfl

theorem checkConnectedPosts (s : Service) : Posts s (checkConnected p s) := by
  unfold checkConnected
  split
  · exact .refl s
  · split
    · dsimp only
      split
      · refine Posts.trans ?_ (terminatedPosts _ _ _)
        exact postsSame rfl
      · exact postsSame rfl
    · exact postsSame rfl

theorem runTaskPosts (task : Task) (s : Service) : Posts s (runTask c env s task) := by
  cases task with
  | displayShutdown p emitSignal => exact displayShutdownPosts emitSignal s
  | displayRemove p =>
    simp only [runTask,displayRemove]
    split
    · exact .refl s
    · exact postsSame rfl
  | checkConnected p => exact checkConnectedPosts s
  | shutdownConnector display => exact postsSame rfl
  | pamAuthenticate p login password token =>
    simp only [runTask]
    split
    · exact .refl s
    · exact pamAuthenticatePosts login password token s
  | pamVerdict p login password =>
    simp only [runTask]
    split
    · exact .refl s
    · exact pamVerdictPosts login password s
  | pamAccount p login =>
    simp only [runTask]
    split
    · exact .refl s
    · exact pamAccountPosts login s
  | pamWait p login =>
    simp only [runTask]
    split
    · exact .refl s
    · exact postsSame rfl

/- The requests and the timers post. -/
theorem requestPosts (a : Action) (request : ∀ index env, a ≠ .exec index env) (s : Service) : Posts s (step c s a) := by
  cases a with
  | exec index env => exact absurd rfl (request index env)
  | startLoginSession launch connectorId remoteAddr connType =>
    simp only [step]
    obtain ⟨_,_,same⟩ | ⟨_,_,same⟩ := loginSessionSource (c := c) launch connectorId.id remoteAddr connType s <;>
      rw [same] <;> exact postsSame rfl
  | startUserSession launch socket oldScreen connectorId userName remoteAddr connType =>
    simp only [step]
    obtain ⟨_,_,same⟩ | ⟨_,_,_,⟨_,_,_,_,_,same⟩ | ⟨_,_,_,same⟩⟩ :=
      userSessionSource (c := c) launch socket oldScreen connectorId.id userName remoteAddr connType s <;>
      rw [same] <;> exact postsSame rfl
  | connectorConnected display connectorId =>
    simp only [step,busConnectorConnected]
    split
    · exact .refl s
    · exact postsSame rfl
  | connectorTerminated display connectorId => exact terminatedPosts display connectorId.id s
  | connectorAlive display => exact onSessionPosts display fun _ => postsSame rfl
  | setAuthenticateToken display login => exact onSessionPosts display fun _ => postsTask _ s
  | setAuthenticateLoginPass display login password => exact onSessionPosts display fun _ => postsTask _ s
  | shutdownDisplay display => exact shutdownDisplayPosts display s
  | shutdownConnector display => exact postsTask _ s
  | setSessionPolicy display policy =>
    simp only [step]
    obtain same | ⟨_,_,same⟩ := policySource display policy s <;> rw [same] <;> exact postsSame rfl
  | setEncryptionInfo display info => exact onSessionPosts display fun _ => postsSame rfl
  | setLoginsDisable action => exact postsSame rfl
  | checkTimer => exact postsFold (fun s _ => postsTask _ s) _ s
  | limitTimer limit display =>
    simp only [step,timerSessionsTimeLimitAction]
    split
    · exact .refl s
    · split
      · exact postsTask _ s
      · split
        · exact postsSame rfl
        · exact .refl s
      · split
        · exact postsTask _ s
        · exact .refl s
  | sessionEnded pid =>
    simp only [step,timerSessionsEndedAction]
    split
    · exact .refl s
    · exact postsTask _ _

/-! What a step does to the places and the modes of the sessions. -/

def key (x : XvfbSession) : Int × SessionMode := (x.displayNum,x.mode)

/- The same sessions in the same slots, with the same modes. -/
structure Same (s t : Service) : Prop where
  slots : t.pool.slots = s.pool.slots
  sessions : SharedPool.Alike key s.pool t.pool

theorem Same.refl (s : Service) : Same s s := ⟨rfl,fun _ => rfl⟩

theorem Same.trans (first : Same s t) (second : Same t u) : Same s u :=
  ⟨second.slots.trans first.slots,first.sessions.trans second.sessions⟩

theorem samePool (pool : t.pool = s.pool) : Same s t := by
  refine ⟨congrArg SharedPool.slots pool,fun p => ?_⟩
  rw [pool]

theorem sameModify {f : XvfbSession → XvfbSession} (keeps : ∀ x, key (f x) = key x) : Same s (s.modify p f) :=
  ⟨rfl,SharedPool.alikeModify keeps⟩

theorem sameUnmoved (same : Unmoved s t) : Same s t := by
  refine ⟨same.slots,fun p => ?_⟩
  have view := congrArg (Option.map fun v : View => (v.displayNum,v.mode)) (same.sessions p)
  rw [Option.map_map,Option.map_map] at view
  exact view

theorem sameFold {α : Type*} {f : Service → α → Service} (each : ∀ s a, Same s (f s a)) (items : List α)
    (s : Service) : Same s (items.foldl f s) := by
  induction items generalizing s with
  | nil => exact .refl s
  | cons a rest ih => exact (each s a).trans (ih (f s a))

theorem sameModified {f : XvfbSession → XvfbSession} (pool : t.pool = s.pool.modify p f) (keeps : ∀ x, key (f x) = key x) :
    Same s t :=
  (sameModify keeps).trans (samePool pool)

def connect (connectorId : Int) (x : XvfbSession) : XvfbSession := {x with connectorId,mode := .connected}

/- A session at most goes: it is shut down, or leaves the pool. -/
inductive Calm (s t : Service) : Prop where
  | same (same : Same s t)
  | shut (p : XvfbSessionPtr) (posted : .displayRemove p ∈ t.tasks) (same : Same (s.modify p shutDown) t)
  | removed (p : XvfbSessionPtr) (x : XvfbSession) (found : s.pool.get p = some x)
      (pool : t.pool = removeDisplaySession x.displayNum s.pool)

/- Or it is left by its connector, taken by one, or new. -/
inductive Move (s t : Service) : Prop where
  | calm (calm : Calm s t)
  | detached (p : XvfbSessionPtr) (same : Same (s.modify p detach) t)
  | connected (p : XvfbSessionPtr) (connectorId : Int) (same : Same (s.modify p (connect connectorId)) t)
  | launched (x : XvfbSession) (display : x.displayNum = s.freeDisplay) (up : x.mode ≠ .shutdown) (same : Same (s.launch x) t)

theorem moveSame (same : Same s t) : Move s t := .calm (.same same)

/- A report on a session that is connected detaches it. -/
theorem terminatedSame (display connectorId : Int) (s : Service) : Same s (busConnectorTerminated display connectorId s) ∨
    ∃ p x, findDisplaySession s.pool display = some (p,x) ∧ x.mode = .connected ∧
      Same (s.modify p detach) (busConnectorTerminated display connectorId s) := by
  unfold busConnectorTerminated
  cases found : findDisplaySession s.pool display with
  | none => exact .inl (.refl s)
  | some entry =>
    obtain ⟨p,x⟩ := entry
    have pool : (reported p x connectorId s).pool = s.pool := by
      unfold reported
      split
      · rfl
      · split <;> rfl
    dsimp only
    split
    · exact .inl (samePool pool)
    · split
      · rename_i online
        refine .inr ⟨p,x,rfl,online,samePool ?_⟩
        simp only [Service.emitPool,Service.modifyPool,pool]
      · exact .inl (samePool pool)

theorem terminatedMove (display connectorId : Int) (s : Service) : Move s (busConnectorTerminated display connectorId s) := by
  obtain same | ⟨p,_,_,_,same⟩ := terminatedSame display connectorId s
  · exact moveSame same
  · exact .detached p same

/- A session counts an answer that is missing before it is taken for gone. -/
def missed (x : XvfbSession) : XvfbSession := {x with connectorFailures := x.connectorFailures + 1}

theorem missedSame (p : XvfbSessionPtr) (s : Service) : Same s (s.modify p missed) := sameModify fun _ => rfl

theorem detachMissed {q : XvfbSessionPtr} : Same (s.modify q detach) ((s.modify p missed).modify q detach) := by
  refine ⟨rfl,fun r => ?_⟩
  rw [Service.modifyPool,Service.modifyPool,Service.modifyPool,SharedPool.getModify,SharedPool.getModify,
    SharedPool.getModify]
  split <;> split <;> cases s.pool.get r <;> rfl

/- The fourth answer that is missing is a report of the connector's end. -/
theorem checkConnectedSame (p : XvfbSessionPtr) (s : Service) : Same s (checkConnected p s) ∨
    ∃ x q y, s.pool.get p = some x ∧ (x.checkConnection ∧ 3 < x.connectorFailures + 1) ∧
      findDisplaySession (s.pool.modify p missed) x.displayNum = some (q,y) ∧ y.mode = .connected ∧
        Same (s.modify q detach) (checkConnected p s) := by
  unfold checkConnected
  split
  · exact .inl (.refl s)
  · rename_i x found
    split
    · rename_i checked
      dsimp only
      split
      · rename_i gone
        obtain same | ⟨q,y,there,online,same⟩ := terminatedSame x.displayNum (-1) (s.modify p missed)
        · exact .inl ((missedSame p s).trans same)
        · exact .inr ⟨x,q,y,found,⟨checked,gone⟩,there,online,detachMissed.trans same⟩
      · exact .inl ((missedSame p s).trans (sameModify fun _ => rfl))
    · exact .inl (sameModified rfl fun _ => rfl)

theorem displayShutdownCalm (p : XvfbSessionPtr) (emitSignal : Bool) (s : Service) :
    Calm s (displayShutdown p emitSignal s) := by
  unfold displayShutdown
  split
  · exact .same (.refl s)
  · rename_i x _
    split
    · exact .same (.refl s)
    · refine .shut p (List.mem_append_right _ List.mem_cons_self) (samePool ?_)
      dsimp only [Service.postPool]
      split <;> split <;> rfl

theorem runTaskCalm (task : Task) (unchecked : ∀ p, task ≠ .checkConnected p) (s : Service) :
    Calm s (runTask c env s task) := by
  cases task with
  | displayShutdown p emitSignal => exact displayShutdownCalm p emitSignal s
  | displayRemove p =>
    simp only [runTask,displayRemove]
    split
    · exact .same (.refl s)
    · rename_i x found
      exact .removed p x found rfl
  | checkConnected p => exact absurd rfl (unchecked p)
  | shutdownConnector display => exact .same (samePool rfl)
  | pamAuthenticate p login password token =>
    simp only [runTask]
    split
    · exact .same (.refl s)
    · exact .same (sameUnmoved (pamAuthenticateUnmoved login password token s))
  | pamVerdict p login password =>
    simp only [runTask]
    split
    · exact .same (.refl s)
    · exact .same (sameUnmoved (pamVerdictUnmoved login password s))
  | pamAccount p login =>
    simp only [runTask]
    split
    · exact .same (.refl s)
    · exact .same (sameUnmoved (pamAccountUnmoved login s))
  | pamWait p login =>
    simp only [runTask]
    split
    · exact .same (.refl s)
    · exact .same (sameUnmoved (loginSuccessUnmoved login s))

theorem runTaskMove (task : Task) (s : Service) : Move s (runTask c env s task) := by
  by_cases checks : ∃ p, task = .checkConnected p
  · obtain ⟨p,rfl⟩ := checks
    obtain same | ⟨_,q,_,_,_,_,_,same⟩ := checkConnectedSame p s
    · exact moveSame same
    · exact .detached q same
  · exact .calm (runTaskCalm task (not_exists.mp checks) s)

theorem onSessionSame {f : XvfbSessionPtr → Service → Service} (display : Int) (each : ∀ p, Same s (f p s)) :
    Same s (onSession display f s) := by
  obtain same | ⟨p,_,_,same⟩ := sessionSource display f s
  · exact samePool (congrArg Service.pool same)
  · rw [same]
    exact each p

/- The requests that leave the sessions where they are. -/
def still : Action → Bool
  | .exec .. | .startLoginSession .. | .startUserSession .. | .connectorConnected .. | .connectorTerminated .. => false
  | _ => true

theorem stillSame (a : Action) (quiet : still a = true) (s : Service) : Same s (step c s a) := by
  cases a with
  | connectorAlive display => exact onSessionSame display fun _ => sameModify fun _ => rfl
  | setAuthenticateToken display login => exact onSessionSame display fun _ => samePool rfl
  | setAuthenticateLoginPass display login password => exact onSessionSame display fun _ => samePool rfl
  | shutdownDisplay display => exact onSessionSame display fun _ => samePool rfl
  | shutdownConnector display => exact samePool rfl
  | setSessionPolicy display policy =>
    simp only [step]
    obtain same | ⟨_,_,same⟩ := policySource display policy s <;> rw [same]
    · exact .refl s
    · exact sameModify fun _ => rfl
  | setEncryptionInfo display info => exact onSessionSame display fun _ => sameModify fun _ => rfl
  | setLoginsDisable action => exact samePool rfl
  | checkTimer =>
    simp only [step,timerSessionsCheckConnectedAction]
    refine sameFold (fun s sess => ?_) _ s
    exact samePool rfl
  | limitTimer limit display =>
    simp only [step,timerSessionsTimeLimitAction]
    split
    · exact .refl s
    · split
      · exact samePool rfl
      · split
        · exact samePool rfl
        · exact .refl s
      · split
        · exact samePool rfl
        · exact .refl s
  | sessionEnded pid =>
    simp only [step,timerSessionsEndedAction]
    split
    · exact .refl s
    · exact sameModified rfl fun _ => rfl
  | exec | startLoginSession | startUserSession | connectorConnected | connectorTerminated => contradiction

/- A start changes no session, or adds one. -/
theorem startLoginMove (launch : Launch) (connectorId : Int) (remoteAddr connType : String) (s : Service) :
    Same s (busStartLoginSession c launch connectorId remoteAddr connType s).2 ∨
      ∃ x, x.displayNum = s.freeDisplay ∧ x.mode ≠ .shutdown ∧
        Same (s.launch x) (busStartLoginSession c launch connectorId remoteAddr connType s).2 := by
  obtain ⟨display,_,same⟩ | ⟨x,launched,same⟩ :=
    loginSessionSource (c := c) launch connectorId remoteAddr connType s <;> rw [same]
  · exact .inl (samePool rfl)
  · refine .inr ⟨{x with remoteAddr,conntype := connType,connectorId},launched.displayNum,?_,samePool rfl⟩
    simp [launched.mode]

theorem startUserMove (launch : Launch) (socket : Bool) (oldScreen connectorId : Int)
    (userName remoteAddr connType : String) (s : Service) :
    Same s (busStartUserSession c launch socket oldScreen connectorId userName remoteAddr connType s).2 ∨
      ∃ x, x.displayNum = s.freeDisplay ∧ x.mode ≠ .shutdown ∧
        Same (s.launch x) (busStartUserSession c launch socket oldScreen connectorId userName remoteAddr connType s).2 := by
  obtain ⟨_,_,same⟩ | ⟨login,loginSess,_,⟨old,_,_,_,_,same⟩ | ⟨_,x,launched,same⟩⟩ :=
    userSessionSource (c := c) launch socket oldScreen connectorId userName remoteAddr connType s <;> rw [same]
  · exact .inl (samePool rfl)
  · refine .inl (Same.trans (t := s.modify old (continueScreen loginSess connectorId remoteAddr connType)) ?_ ?_)
    · exact sameModify fun _ => rfl
    · exact sameModified (f := moveEncryption) rfl fun _ => rfl
  · refine .inr ⟨updateScreen c loginSess connectorId remoteAddr connType x,launched.displayNum,
      SessionMode.noConfusion,?_⟩
    exact sameModified (f := moveEncryption) rfl fun _ => rfl

theorem requestMove (a : Action) (request : ∀ index env, a ≠ .exec index env) (s : Service) : Move s (step c s a) := by
  cases quiet : still a with
  | true => exact moveSame (stillSame a quiet s)
  | false =>
    cases a with
    | exec index env => exact absurd rfl (request index env)
    | startLoginSession launch connectorId remoteAddr connType =>
      obtain same | ⟨x,display,up,same⟩ := startLoginMove (c := c) launch connectorId.id remoteAddr connType s
      · exact moveSame same
      · exact .launched x display up same
    | startUserSession launch socket oldScreen connectorId userName remoteAddr connType =>
      obtain same | ⟨x,display,up,same⟩ :=
        startUserMove (c := c) launch socket oldScreen connectorId.id userName remoteAddr connType s
      · exact moveSame same
      · exact .launched x display up same
    | connectorConnected display connectorId =>
      simp only [step,busConnectorConnected]
      split
      · exact moveSame (.refl s)
      · exact .connected _ connectorId.id (samePool rfl)
    | connectorTerminated display connectorId => exact terminatedMove display connectorId.id s
    | _ => contradiction

/-! A display that is to be shut down. -/

/- What is posted, or has been done, takes the session out of the pool. -/
def Doomed (s : Service) (p : XvfbSessionPtr) : Prop :=
  (∃ emitSignal, .displayShutdown p emitSignal ∈ s.tasks) ∨ .displayRemove p ∈ s.tasks ∨ some p ∉ s.pool.slots

/- A session has one slot, and one that is shut down is on its way out of it. -/
structure Tidy (s : Service) : Prop where
  well : Wellformed s
  held : ∀ p, some p ∈ s.pool.slots → s.pool.Allocated p
  once : (s.pool.slots.filterMap id).Nodup
  down : ∀ p x, s.pool.get p = some x → x.mode = .shutdown → some p ∈ s.pool.slots → .displayRemove p ∈ s.tasks

theorem alikeAllocated {α β : Type*} {g : α → β} {a b : SharedPool α} (alike : SharedPool.Alike g a b) :
    b.Allocated p ↔ a.Allocated p := by
  constructor
  · intro allocated
    obtain ⟨y,found⟩ := SharedPool.allocatedGet allocated
    obtain ⟨x,before,_⟩ := alike.source found
    exact SharedPool.getAllocated before
  · intro allocated
    obtain ⟨x,found⟩ := SharedPool.allocatedGet allocated
    obtain ⟨y,after,_⟩ := alike.target found
    exact SharedPool.getAllocated after

theorem memPointers {slots : List (Option Nat)} {q : Nat} : q ∈ slots.filterMap id ↔ some q ∈ slots := by
  simp

/- Sessions of the pool stay where they are or leave it; a new one has a pointer of its own. -/
structure Slotted (s t : Service) : Prop where
  allocated : ∀ p, s.pool.Allocated p → t.pool.Allocated p
  slots : ∀ p, s.pool.Allocated p → some p ∈ t.pool.slots → some p ∈ s.pool.slots
  held : (∀ p, some p ∈ s.pool.slots → s.pool.Allocated p) → ∀ p, some p ∈ t.pool.slots → t.pool.Allocated p
  once : (∀ p, some p ∈ s.pool.slots → s.pool.Allocated p) → (s.pool.slots.filterMap id).Nodup →
    (t.pool.slots.filterMap id).Nodup

theorem Slotted.trans (first : Slotted s t) (second : Slotted t u) : Slotted s u where
  allocated p h := second.allocated p (first.allocated p h)
  slots p h there := first.slots p h (second.slots p (first.allocated p h) there)
  held h := second.held (first.held h)
  once h nodup := second.once (first.held h) (first.once h nodup)

theorem slottedSame (same : Same s t) : Slotted s t := by
  refine ⟨fun p => (alikeAllocated same.sessions).mpr,fun p _ there => same.slots ▸ there,fun h p there => ?_,fun _ => ?_⟩
  · exact (alikeAllocated same.sessions).mpr (h p (same.slots ▸ there))
  · rw [same.slots]
    exact id

theorem slottedModify (f : XvfbSession → XvfbSession) : Slotted s (s.modify p f) :=
  ⟨fun _ => SharedPool.allocatedModify.mpr,fun _ _ => id,fun h q there => SharedPool.allocatedModify.mpr (h q there),
    fun _ => id⟩

theorem releasePointers (test : XvfbSession → Bool) (pool : XvfbPool) : (pool.release test).slots.filterMap id =
    (pool.slots.filterMap id).eraseP fun q => (pool.get q).any test := by
  refine filterMapUpdate (fun slot => ?_) (fun _ => rfl) pool.slots
  cases slot <;> rfl

theorem slottedRemove (screen : Int) (pool : t.pool = removeDisplaySession screen s.pool) : Slotted s t := by
  have kept (q : XvfbSessionPtr) (there : some q ∈ t.pool.slots) : some q ∈ s.pool.slots := by
    rw [pool] at there
    exact SharedPool.releaseSlots there
  have heap : t.pool.heap = s.pool.heap := by
    rw [pool]
    rfl
  have allocated (q : XvfbSessionPtr) (h : s.pool.Allocated q) : t.pool.Allocated q := by
    rw [SharedPool.Allocated,heap]
    exact h
  refine ⟨allocated,fun q _ => kept q,fun h q there => allocated q (h q (kept q there)),fun _ nodup => ?_⟩
  rw [pool,removeDisplaySession,releasePointers]
  exact nodup.sublist List.eraseP_sublist

theorem modifiedAllocated {q : XvfbSessionPtr} {f : XvfbSession → XvfbSession} (same : Same (s.modify q f) t)
    (known : t.pool.Allocated p) : s.pool.Allocated p :=
  SharedPool.allocatedModify.mp ((alikeAllocated same.sessions).mp known)

theorem calmAllocated (calm : Calm s t) (known : t.pool.Allocated p) : s.pool.Allocated p := by
  cases calm with
  | same same => exact (alikeAllocated same.sessions).mp known
  | shut q _ same => exact modifiedAllocated same known
  | removed q y _ pool =>
    rw [pool] at known
    exact known

theorem slottedLaunch (x : XvfbSession) : Slotted s (s.launch x) := by
  have grown (q : XvfbSessionPtr) (h : s.pool.Allocated q) : (s.launch x).pool.Allocated q := by
    obtain ⟨y,found⟩ := SharedPool.allocatedGet h
    exact SharedPool.getAllocated (SharedPool.getInsertOld found)
  refine ⟨grown,fun q h there => ?_,fun h q there => ?_,fun h nodup => ?_⟩
  · refine (SharedPool.insertSlots there).resolve_right fun new => ?_
    exact absurd (Option.some.inj new) (Nat.ne_of_lt h)
  · obtain old | new := SharedPool.insertSlots there
    · exact grown q (h q old)
    · rw [Option.some.inj new]
      exact SharedPool.getAllocated (x := x) (SharedPool.getInsert.trans (if_pos rfl))
  · change ((updateFirst Option.isNone (fun _ => some s.pool.heap.length) s.pool.slots).filterMap id).Nodup
    cases vacant : s.pool.slots.find? Option.isNone with
    | none => rwa [updateAbsent vacant]
    | some slot =>
      have perm := (permUpdate (f := fun _ => some s.pool.heap.length) vacant).filterMap id
      refine perm.nodup_iff.mpr (List.nodup_cons.mpr ⟨fun inside => ?_,?_⟩)
      · have there : some s.pool.heap.length ∈ s.pool.slots := List.mem_of_mem_eraseP (memPointers.mp inside)
        exact absurd (h _ there) (lt_irrefl _)
      · exact nodup.sublist (List.eraseP_sublist.filterMap id)

theorem slottedMove (move : Move s t) : Slotted s t := by
  cases move with
  | calm calm =>
    cases calm with
    | same same => exact slottedSame same
    | shut p _ same => exact (slottedModify shutDown).trans (slottedSame same)
    | removed p x _ pool => exact slottedRemove x.displayNum pool
  | detached p same => exact (slottedModify detach).trans (slottedSame same)
  | connected p connectorId same => exact (slottedModify (connect connectorId)).trans (slottedSame same)
  | launched x _ _ same => exact (slottedLaunch x).trans (slottedSame same)

/- The one session with a display leaves its one slot. -/
theorem removedGone (own : OwnDisplays s.pool) (once : (s.pool.slots.filterMap id).Nodup) (found : s.pool.get p = some x) :
    some p ∉ (removeDisplaySession x.displayNum s.pool).slots := by
  intro there
  have inside : p ∈ s.pool.slots.filterMap id := memPointers.mpr (SharedPool.releaseSlots there)
  have left : p ∈ (s.pool.slots.filterMap id).eraseP
      fun q => (s.pool.get q).any fun sess => sess.displayNum = x.displayNum := by
    rw [← releasePointers]
    exact memPointers.mpr there
  have tested : ((s.pool.get p).any fun sess => sess.displayNum = x.displayNum) = true := by simp [found]
  cases first : (s.pool.slots.filterMap id).find? fun q => (s.pool.get q).any fun sess => sess.displayNum = x.displayNum with
  | none => exact absurd tested (List.find?_eq_none.mp first p inside)
  | some q =>
    have test := List.find?_some first
    cases other : s.pool.get q with
    | none => simp [other] at test
    | some y =>
      have display : y.displayNum = x.displayNum := by simpa [other] using test
      obtain rfl := own q p y x other found display
      have apart := (permErase first).nodup_iff.mp once
      exact (List.nodup_cons.mp apart).1 left

/- Where the sessions go in a step that loses no task but those it is known to. -/
theorem moveDown (move : Move s t) (posts : Posts s t) (found : t.pool.get p = some x) (shut : x.mode = .shutdown)
    (down : ∀ y, s.pool.get p = some y → y.mode = .shutdown → .displayRemove p ∈ s.tasks) :
    .displayRemove p ∈ t.tasks := by
  have same {f : XvfbSession → XvfbSession} {q : XvfbSessionPtr} (kept : Same (s.modify q f) t)
      (up : ∀ y, (f y).mode = .shutdown → y.mode = .shutdown) : .displayRemove p ∈ t.tasks := by
    obtain ⟨y,after,equal⟩ := kept.sessions.source found
    obtain ⟨z,before,from_⟩ := SharedPool.modifySource after
    have mode : y.mode = .shutdown := (congrArg Prod.snd equal).symm.trans shut
    refine posts.subset (down z before ?_)
    obtain ⟨_,image⟩ | ⟨_,image⟩ := from_
    · exact up z (image ▸ mode)
    · exact image ▸ mode
  cases move with
  | calm calm =>
    cases calm with
    | same kept =>
      obtain ⟨y,before,equal⟩ := kept.sessions.source found
      exact posts.subset (down y before ((congrArg Prod.snd equal).symm.trans shut))
    | shut q posted kept =>
      by_cases self : q = p
      · exact self ▸ posted
      · obtain ⟨y,after,equal⟩ := kept.sessions.source found
        obtain ⟨z,before,⟨there,_⟩ | ⟨_,image⟩⟩ := SharedPool.modifySource after
        · exact absurd there self
        · exact posts.subset (down z before (image ▸ (congrArg Prod.snd equal).symm.trans shut))
    | removed q y gone pool =>
      have before : s.pool.get p = some x := by
        rw [pool] at found
        exact found
      exact posts.subset (down x before shut)
  | detached q kept => exact same kept fun y down => SessionMode.noConfusion down
  | connected q connectorId kept => exact same kept fun y down => SessionMode.noConfusion down
  | launched y display up kept =>
    obtain ⟨z,after,equal⟩ := kept.sessions.source found
    obtain ⟨_,new⟩ | before := SharedPool.insertSource after
    · exact absurd ((congrArg Prod.snd equal).symm.trans shut) (new ▸ up)
    · exact posts.subset (down z before ((congrArg Prod.snd equal).symm.trans shut))

theorem erasedKept {task other : Task} {tasks : List Task} {index : Nat} (inside : task ∈ tasks)
    (taken : tasks[index]? = some other) (different : other ≠ task) : task ∈ tasks.eraseIdx index := by
  obtain ⟨place,bound,rfl⟩ := List.getElem_of_mem inside
  refine List.mem_eraseIdx_iff_getElem?.mpr ⟨place,?_,List.getElem?_eq_getElem bound⟩
  rintro rfl
  rw [List.getElem?_eq_getElem bound] at taken
  exact different (Option.some.inj taken).symm

theorem requestTidy {a : Action} (request : ∀ index env, a ≠ .exec index env) (tidy : Tidy s) : Tidy (step c s a) := by
  have move := requestMove (c := c) a request s
  have posts := requestPosts (c := c) a request s
  have slotted := slottedMove move
  refine ⟨stepWellformed s a tidy.well,slotted.held tidy.held,slotted.once tidy.held tidy.once,fun p x found shut there => ?_⟩
  exact moveDown move posts found shut fun y before down =>
    tidy.down p y before down (slotted.slots p (SharedPool.getAllocated before) there)

/- A task that is run is not there any more, but what it was to do has been done. -/
theorem execTidy (index : Nat) (env : Environment) (tidy : Tidy s) : Tidy (step c s (.exec index env)) := by
  have well := stepWellformed (c := c) s (.exec index env) tidy.well
  simp only [step,exec] at well ⊢
  cases queued : s.tasks[index]? with
  | none => exact tidy
  | some task =>
    rw [queued] at well
    have move := @runTaskMove c env task {s with tasks := s.tasks.eraseIdx index}
    have posts := @runTaskPosts c env task {s with tasks := s.tasks.eraseIdx index}
    have slotted := slottedMove move
    refine ⟨well,slotted.held tidy.held,slotted.once tidy.held tidy.once,fun p x found shut there => ?_⟩
    refine moveDown move posts found shut fun y before down => ?_
    have here := slotted.slots p (SharedPool.getAllocated before) there
    refine erasedKept (tidy.down p y before down here) queued ?_
    rintro rfl
    simp only [runTask,displayRemove,show SharedPool.get s.pool p = some y from before] at there
    exact removedGone tidy.well.own tidy.once before there

theorem stepTidy (a : Action) (tidy : Tidy s) : Tidy (step c s a) := by
  by_cases task : ∃ index env, a = .exec index env
  · obtain ⟨index,env,rfl⟩ := task
    exact execTidy index env tidy
  · exact requestTidy (fun index env same => task ⟨index,env,same⟩) tidy

theorem startTidy : Tidy start := by
  have none (p : XvfbSessionPtr) : some p ∉ start.pool.slots := fun there =>
    absurd (List.eq_of_mem_replicate there) (Option.some_ne_none p)
  refine ⟨startWellformed,fun p there => absurd there (none p),?_,fun p _ _ _ there => absurd there (none p)⟩
  have empty : start.pool.slots.filterMap id = [] := by
    refine List.filterMap_eq_nil_iff.mpr fun slot inside => ?_
    rw [List.eq_of_mem_replicate inside]
    rfl
  rw [empty]
  exact List.nodup_nil

theorem shutdownPosts {emitSignal : Bool} (found : s.pool.get p = some x) (up : x.mode ≠ .shutdown) :
    .displayRemove p ∈ (displayShutdown p emitSignal s).tasks := by
  simp only [displayShutdown,found,if_neg up]
  exact List.mem_append_right _ List.mem_cons_self

/- What is doomed stays so: a shutdown posts the removal, and the removal empties the slot. -/
theorem stepDoomed (a : Action) (tidy : Tidy s) (allocated : s.pool.Allocated p) (doomed : Doomed s p) :
    Doomed (step c s a) p := by
  by_cases task : ∃ index env, a = .exec index env
  · obtain ⟨index,env,rfl⟩ := task
    simp only [step,exec]
    cases queued : s.tasks[index]? with
    | none => exact doomed
    | some task =>
      have move := @runTaskMove c env task {s with tasks := s.tasks.eraseIdx index}
      have posts := @runTaskPosts c env task {s with tasks := s.tasks.eraseIdx index}
      have slotted := slottedMove move
      obtain ⟨emitSignal,inside⟩ | inside | gone := doomed
      · by_cases self : task = .displayShutdown p emitSignal
        · subst self
          obtain ⟨x,found⟩ := SharedPool.allocatedGet allocated
          by_cases shut : x.mode = .shutdown
          · by_cases here : some p ∈ s.pool.slots
            · have removes := erasedKept (tidy.down p x found shut here) queued (by simp)
              exact .inr (.inl (posts.subset removes))
            · exact .inr (.inr fun there => here (slotted.slots p allocated there))
          · exact .inr (.inl (shutdownPosts found shut))
        · exact .inl ⟨emitSignal,posts.subset (erasedKept inside queued self)⟩
      · by_cases self : task = .displayRemove p
        · subst self
          obtain ⟨x,found⟩ := SharedPool.allocatedGet allocated
          refine .inr (.inr ?_)
          simp only [runTask,displayRemove,found]
          exact removedGone tidy.well.own tidy.once found
        · exact .inr (.inl (posts.subset (erasedKept inside queued self)))
      · exact .inr (.inr fun there => gone (slotted.slots p allocated there))
  · have request : ∀ index env, a ≠ .exec index env := fun index env same => task ⟨index,env,same⟩
    have posts := requestPosts (c := c) a request s
    have slotted := slottedMove (requestMove (c := c) a request s)
    obtain ⟨emitSignal,inside⟩ | inside | gone := doomed
    · exact .inl ⟨emitSignal,posts.subset inside⟩
    · exact .inr (.inl (posts.subset inside))
    · exact .inr (.inr fun there => gone (slotted.slots p allocated there))

end

end Ltsm.SessionTasks
