import Ltsm.SessionMoves

/-! Who is attached to a session. The mode and the connector that the service keeps
are compared with what the connectors themselves have reported. -/
namespace Ltsm.SessionAttachment
open Library XvfbSessions DBusAdaptor SessionMoves

/- The connector has reported for the session, and has since then neither reported its
end nor been found dead. The history has its newest event in front. -/
def live (p : XvfbSessionPtr) (connectorId : Int) : List Event → Bool
  | [] => false
  | .connected q c :: earlier => if q = p ∧ c = connectorId then true else live p connectorId earlier
  | .terminated q c :: earlier | .timedOut q c :: earlier =>
    if q = p ∧ c = connectorId then false else live p connectorId earlier
  | _ :: earlier => live p connectorId earlier

def AttachedExactly (s : Service) : Prop :=
  ∀ p x, s.pool.get p = some x → (x.mode = .connected ↔ live p x.connectorId s.history = true)

def ShutdownStays (s t : Service) : Prop :=
  ∀ p x, s.pool.get p = some x → x.mode = .shutdown → ∃ y, t.pool.get p = some y ∧ y.mode = .shutdown

def attachedBy (p : XvfbSessionPtr) (connectorId : Int) : Event → Bool
  | .created _ q _ _ c | .resumed _ q _ c | .connected q c => q = p ∧ c = connectorId
  | _ => false

/- The connector once had the user session, and someone else has it now. -/
def Displaced (s : Service) (p : XvfbSessionPtr) (x : XvfbSession) (connectorId : Int) : Prop :=
  x.mode ≠ .login ∧ s.history.any (attachedBy p connectorId) = true ∧ x.connectorId ≠ connectorId
instance (s p x connectorId) : Decidable (Displaced s p x connectorId) := by
  unfold Displaced; infer_instance

/- The report of a displaced connector is noted and changes nothing. -/
def DisplacedIgnored (c : Config) (s : Service) : Action → Prop
  | .connectorTerminated display connectorId => ∀ p x, findDisplaySession s.pool display = some (p,x) →
      Displaced s p x connectorId.id →
        step c s (.connectorTerminated display connectorId) = s.log (.terminated p connectorId.id)
  | _ => True

structure AttachmentKept (c : Config) (s : Service) (a : Action) : Prop where
  exact : AttachedExactly (step c s a)
  shutdown : ShutdownStays s (step c s a)
  displaced : DisplacedIgnored c s a

/- A session is resumed while it is not Connected, except by the connector it already
has; the report of a displaced connector comes while the session is not Connected; and
no connector reports for a session that is shut down. -/
def InOrder (s : Service) : Action → Prop
  | .startUserSession _ socket oldScreen connectorId userName _ _ =>
    ∀ p x rest, (findDisplaySession s.pool oldScreen).isSome = true →
      findUserSessions s.pool userName = (p,x) :: rest → checkDisplaySessionAlive socket x.displayNum = true →
        (x.mode = .connected ↔ live p connectorId.id s.history = true)
  | .connectorConnected display _ =>
    ∀ p x, findDisplaySession s.pool display = some (p,x) → x.mode ≠ .shutdown
  | .connectorTerminated display connectorId =>
    ∀ p x, findDisplaySession s.pool display = some (p,x) → Displaced s p x connectorId.id →
      x.mode ≠ .connected
  | _ => True

structure Attachments (s : Service) : Prop where
  wellformed : Wellformed s
  exact : AttachedExactly s
  reports : ∀ p connectorId, live p connectorId s.history = true → 0 < connectorId ∧ s.pool.Allocated p

section
variable {s t : Service} {p q : XvfbSessionPtr} {x : XvfbSession} {c : Config} {connectorId : Int}

theorem liveFilter (history : List Event) :
    live p connectorId (history.filter attaches) = live p connectorId history := by
  induction history with
  | nil => rfl
  | cons event earlier ih => cases event <;> simp [List.filter_cons,attaches,live,ih]

theorem unmovedLive (same : Unmoved s t) : live p connectorId t.history = live p connectorId s.history := by
  rw [← liveFilter,same.history,liveFilter]

/- An event of one session says nothing about another one. -/
theorem liveOther {event : Event} (history : List Event) (other : ∀ c,
    event ≠ .connected p c ∧ event ≠ .terminated p c ∧ event ≠ .timedOut p c) :
    live p connectorId (event :: history) = live p connectorId history := by
  cases event with
  | connected q c | terminated q c | timedOut q c =>
    have different : q ≠ p := by
      intro same
      have := other c
      simp [same] at this
    simp [live,different]
  | _ => rfl

theorem Attachments.none (h : Attachments s) (bad : connectorId ≤ 0) :
    live p connectorId s.history = false := by
  cases alive : live p connectorId s.history with
  | false => rfl
  | true =>
    have := (h.reports p connectorId alive).1
    omega

theorem Attachments.fresh (h : Attachments s) (connectorId : Int) :
    live s.pool.heap.length connectorId s.history = false := by
  cases alive : live s.pool.heap.length connectorId s.history with
  | false => rfl
  | true => exact absurd (h.reports _ connectorId alive).2 (lt_irrefl _)

theorem Attachments.unmoved (same : Unmoved s t) (h : Attachments s) : Attachments t := by
  refine ⟨h.wellformed.unmoved same,?_,?_⟩
  · intro p x found
    obtain ⟨old,before,equal⟩ := same.source found
    rw [viewMode equal,viewConnector equal,unmovedLive same]
    exact h.exact p old before
  · intro p connectorId alive
    rw [unmovedLive same] at alive
    obtain ⟨positive,allocated⟩ := h.reports p connectorId alive
    obtain ⟨old,before⟩ : ∃ old, s.pool.get p = some old := SharedPool.allocatedGet allocated
    obtain ⟨new,after,_⟩ := same.target before
    exact ⟨positive,SharedPool.getAllocated after⟩

/- A step on one session keeps the invariant if the session itself comes out right. -/
theorem Attachments.at (h : Attachments s) (event : Event) (f : XvfbSession → XvfbSession)
    (display : ∀ x, (f x).displayNum = x.displayNum)
    (others : ∀ q c, q ≠ p → live q c (event :: s.history) = live q c s.history)
    (here : ∀ x, s.pool.get p = some x →
      ((f x).mode = .connected ↔ live p (f x).connectorId (event :: s.history) = true))
    (reports : ∀ c, live p c (event :: s.history) = true → 0 < c ∧ s.pool.Allocated p) :
    Attachments ((s.log event).modify p f) := by
  have logged : Wellformed (s.log event) := ⟨h.wellformed.own,h.wellformed.fresh⟩
  refine ⟨logged.modify display,?_,?_⟩
  · intro q x found
    obtain ⟨old,before,⟨same,image⟩ | ⟨other,image⟩⟩ := SharedPool.modifySource found
    · cases same
      rw [image]
      exact here old before
    · rw [image,Service.modifyHistory,Service.logHistory,others q _ (Ne.symm other)]
      exact h.exact q old before
  · intro q c alive
    rw [Service.modifyHistory,Service.logHistory] at alive
    rw [Service.modifyPool,SharedPool.allocatedModify]
    by_cases same : q = p
    · subst same
      exact reports c alive
    · rw [others q c same] at alive
      exact h.reports q c alive

theorem shutDownAttachments (h : Attachments s) (found : s.pool.get p = some x) :
    Attachments (s.modify p shutDown) := by
  refine ⟨h.wellformed.modify (shutDownKeeps _ fun _ _ _ => rfl),?_,?_⟩
  · intro q y there
    obtain ⟨old,before,⟨same,image⟩ | ⟨other,image⟩⟩ := SharedPool.modifySource there
    · cases same
      cases Option.some.inj (found.symm.trans before)
      have off : y.mode ≠ .connected := by
        rw [image,shutDownMode]
        simp
      have dead : live p y.connectorId s.history = false := by
        rw [image]
        unfold shutDown
        split
        · exact h.none le_rfl
        · rename_i kept
          by_cases none : x.connectorId = 0
          · exact h.none none.le
          · -- a login screen keeps its connector, which has not reported for it
            have login : x.mode = .login := by simpa [none] using kept
            have exact := h.exact p x found
            simpa [login] using exact
      simp [off,dead]
    · rw [image]
      exact h.exact q old before
  · intro q c alive
    exact ⟨(h.reports q c alive).1,SharedPool.allocatedModify.mpr (h.reports q c alive).2⟩

theorem timedOutAttachments (h : Attachments s) (x : XvfbSession) :
    Attachments ((s.log (.timedOut p x.connectorId)).modify p detach) := by
  apply h.at
  · intro x
    rfl
  · intro q c other
    simp [live,Ne.symm other]
  · intro y _
    have dead : live p 0 (.timedOut p x.connectorId :: s.history) = false := by
      simp [live,h.none]
    simp [detach,dead]
  · intro c alive
    have earlier : live p c s.history = true := by
      simp only [live] at alive
      split at alive
      · contradiction
      · exact alive
    exact h.reports p c earlier

theorem backgroundAttachments (h : Attachments s) (moved : Background s t) : Attachments t := by
  cases moved with
  | unmoved same => exact h.unmoved same
  | shutDown p x found up same => exact (shutDownAttachments h found).unmoved same
  | removed display same => exact Attachments.unmoved same ⟨⟨h.wellformed.own,h.wellformed.fresh⟩,h.exact,h.reports⟩
  | timedOut p x inside online same =>
    exact (timedOutAttachments h x).unmoved same

theorem launchAttachments (h : Attachments s) (display : x.displayNum = s.freeDisplay)
    (mode : x.mode ≠ .connected) : Attachments (s.launch x) := by
  refine ⟨h.wellformed.launch display,?_,?_⟩
  · intro q y there
    rcases SharedPool.insertSource there with ⟨rfl,rfl⟩ | old
    · have dead := h.fresh y.connectorId
      simp [mode,dead]
    · exact h.exact q y old
  · intro q c alive
    obtain ⟨positive,allocated⟩ := h.reports q c alive
    refine ⟨positive,?_⟩
    change q < (s.pool.heap ++ [x]).length
    rw [List.length_append]
    exact Nat.lt_add_right _ allocated

/-! The requests of a connector. -/

theorem connectedAttachments (h : Attachments s) (display : Int) (connectorId : Pid) :
    Attachments (busConnectorConnected display connectorId.id s) := by
  unfold busConnectorConnected
  cases found : findDisplaySession s.pool display with
  | none => exact h
  | some entry =>
    obtain ⟨p,x⟩ := entry
    have there := (displaySource found).2.1
    have kept : Attachments ((s.log (.connected p connectorId.id)).modify p
        fun x => {x with connectorId := connectorId.id,mode := .connected}) := by
      apply h.at
      · intro x
        rfl
      · intro q c other
        simp [live,Ne.symm other]
      · intro y _
        simp [live]
      · intro c alive
        refine ⟨?_,SharedPool.getAllocated there⟩
        simp only [live] at alive
        split at alive
        · rename_i same
          exact same.2 ▸ connectorId.positive
        · exact (h.reports p c alive).1
    exact ⟨⟨kept.wellformed.own,kept.wellformed.fresh⟩,kept.exact,kept.reports⟩

theorem reportAttachments (h : Attachments s) (found : s.pool.get p = some x) (off : x.mode ≠ .connected)
    (connectorId : Int) : Attachments (s.log (.terminated p connectorId)) := by
  have mono (q : XvfbSessionPtr) (c : Int)
      (alive : live q c (.terminated p connectorId :: s.history) = true) : live q c s.history = true := by
    simp only [live] at alive
    split at alive
    · contradiction
    · exact alive
  refine ⟨⟨h.wellformed.own,h.wellformed.fresh⟩,?_,?_⟩
  · intro q y there
    change y.mode = .connected ↔ live q y.connectorId (.terminated p connectorId :: s.history) = true
    by_cases same : p = q
    · subst same
      cases Option.some.inj (found.symm.trans there)
      have exact := h.exact p x found
      constructor
      · exact fun on => absurd on off
      · exact fun alive => exact.mpr (mono p _ alive)
    · rw [liveOther]
      · exact h.exact q y there
      · intro c
        simp [same]
  · intro q c alive
    exact h.reports q c (mono q c alive)

theorem terminatedAttachments (h : Attachments s) (display : Int) (connectorId : Pid) :
    Attachments (busConnectorTerminated display connectorId.id s) := by
  have other : connectorId.id ≠ -1 := by
    have := connectorId.positive
    omega
  unfold busConnectorTerminated reported
  simp only [ne_eq,other,not_false_eq_true,if_true]
  cases found : findDisplaySession s.pool display with
  | none => exact h
  | some entry =>
    obtain ⟨p,x⟩ := entry
    have there := (displaySource found).2.1
    dsimp only
    split
    · rename_i login
      exact (reportAttachments h there (by simp [login]) _).unmoved (unmovedPost _ _)
    split
    · refine Attachments.unmoved (unmovedEmit _ _) (h.at (.terminated p connectorId.id) detach ?_ ?_ ?_ ?_)
      · intro x
        rfl
      · intro q c other
        simp [live,Ne.symm other]
      · intro y _
        have dead : live p 0 (.terminated p connectorId.id :: s.history) = false := by
          simp [live,h.none]
        simp [detach,dead]
      · intro c alive
        refine ⟨?_,SharedPool.getAllocated there⟩
        simp only [live] at alive
        split at alive
        · contradiction
        · exact (h.reports p c alive).1
    · rename_i off
      exact reportAttachments h there off _

/- Overwriting the connector of a session that is resumed keeps the invariant exactly
when the session is Connected and the new connector is the one that reported for it,
or neither of the two. -/
theorem resumedAttachments (h : Attachments s) (login : XvfbSessionPtr) (user : String)
    {f : XvfbSession → XvfbSession} (display : ∀ x, (f x).displayNum = x.displayNum)
    (mode : ∀ x, (f x).mode = x.mode) (connector : ∀ x, (f x).connectorId = connectorId)
    (agrees : ∀ x, s.pool.get p = some x → (x.mode = .connected ↔ live p connectorId s.history = true)) :
    Attachments ((s.log (.resumed login p user connectorId)).modify p f) := by
  apply h.at
  · exact display
  · intro q c _
    rfl
  · intro x there
    rw [mode,connector]
    exact agrees x there
  · exact fun c alive => h.reports p c alive

theorem noteAttachments {event : Event} (quiet : ∀ q c history, live q c (event :: history) = live q c history)
    (h : Attachments s) : Attachments (s.log event) := by
  refine ⟨⟨h.wellformed.own,h.wellformed.fresh⟩,?_,?_⟩
  · intro q y there
    rw [Service.logHistory,quiet]
    exact h.exact q y there
  · intro q c alive
    rw [Service.logHistory,quiet] at alive
    exact h.reports q c alive

theorem userSessionAttachments (h : Attachments s) (launch : Launch) (socket : Bool) (oldScreen : Int)
    (connectorId : Pid) (userName remoteAddr connType : String)
    (order : InOrder s (.startUserSession launch socket oldScreen connectorId userName remoteAddr connType)) :
    Attachments (busStartUserSession c launch socket oldScreen connectorId.id userName remoteAddr connType s).2 := by
  obtain ⟨display,later,same⟩ | ⟨login,loginSess,found,⟨old,oldSess,rest,sessions,alive,same⟩ | ⟨_,x,launched,same⟩⟩ :=
    userSessionSource (c := c) launch socket oldScreen connectorId.id userName remoteAddr connType s
  · rw [same]
    exact ⟨⟨h.wellformed.own,fun p x there => (h.wellformed.fresh p x there).trans_le later⟩,h.exact,h.reports⟩
  · rw [same]
    have agrees := order old oldSess rest (by rw [found]; rfl) sessions alive
    have front : (old,oldSess) ∈ findUserSessions s.pool userName := by
      rw [sessions]
      exact List.mem_cons_self
    have there := SharedPool.entriesGet (memUserSessions.mp front).1
    have kept : Attachments ((s.log (.resumed login old userName connectorId.id)).modify old
        (continueScreen loginSess connectorId.id remoteAddr connType)) := by
      apply resumedAttachments h
      · intro x
        rfl
      · intro x
        rfl
      · intro x
        rfl
      · intro x here
        cases Option.some.inj (there.symm.trans here)
        exact agrees
    have moved := unmovedModify (p := login) (f := moveEncryption) (by intro; rfl)
      ((s.log (.resumed login old userName connectorId.id)).modify old
        (continueScreen loginSess connectorId.id remoteAddr connType))
    exact kept.unmoved (moved.trans (unmovedEmit (.sessionReconnect remoteAddr connType) _))
  · rw [same]
    have kept := launchAttachments (x := updateScreen c loginSess connectorId.id remoteAddr connType x) h
      launched.displayNum (by simp [updateScreen])
    have moved := kept.unmoved (unmovedModify (p := login) (f := moveEncryption) (by intro; rfl) _)
    exact noteAttachments (fun _ _ _ => rfl) moved

theorem stepAttachments (s : Service) (a : Action) (order : InOrder s a) (h : Attachments s) :
    Attachments (step c s a) := by
  cases quiet : background a with
  | true => exact backgroundAttachments h (stepBackground a quiet s)
  | false =>
    cases a with
    | startLoginSession launch connectorId remoteAddr connType =>
      simp only [step]
      obtain ⟨display,later,same⟩ | ⟨x,launched,same⟩ :=
        loginSessionSource (c := c) launch connectorId.id remoteAddr connType s
      · rw [same]
        exact ⟨⟨h.wellformed.own,fun p x there => (h.wellformed.fresh p x there).trans_le later⟩,h.exact,h.reports⟩
      · rw [same]
        have mode := launched.mode
        rw [if_pos rfl] at mode
        exact noteAttachments (fun _ _ _ => rfl) (launchAttachments h launched.displayNum (by simp [mode]))
    | startUserSession launch socket oldScreen connectorId userName remoteAddr connType =>
      exact userSessionAttachments h launch socket oldScreen connectorId userName remoteAddr connType order
    | connectorConnected display connectorId => exact connectedAttachments h display connectorId
    | connectorTerminated display connectorId => exact terminatedAttachments h display connectorId
    | setSessionPolicy display policy =>
      have set (p : XvfbSessionPtr) (policy : SessionPolicy) :
          Attachments (s.modify p fun x => {x with policy}) := by
        refine ⟨h.wellformed.modify fun _ => rfl,?_,fun q c alive =>
          ⟨(h.reports q c alive).1,SharedPool.allocatedModify.mpr (h.reports q c alive).2⟩⟩
        intro q y there
        obtain ⟨old,before,⟨_,rfl⟩ | ⟨_,rfl⟩⟩ := SharedPool.modifySource there
        · exact h.exact q old before
        · exact h.exact q _ before
      simp only [step]
      obtain same | ⟨p,policy',same⟩ := policySource display policy s
      · rw [same]
        exact h
      · rw [same]
        exact set p policy'
    | _ => contradiction

/-! Shutdown. -/

theorem staysRefl (s : Service) : ShutdownStays s s := fun _ x found mode => ⟨x,found,mode⟩

theorem staysModify {f : XvfbSession → XvfbSession}
    (keeps : ∀ x, s.pool.get p = some x → x.mode = .shutdown → (f x).mode = .shutdown) :
    ShutdownStays s (s.modify p f) := by
  intro q x found mode
  by_cases same : p = q
  · subst same
    exact ⟨f x,SharedPool.getModifySelf found,keeps x found mode⟩
  · refine ⟨x,?_,mode⟩
    rw [Service.modifyPool,SharedPool.getModify,if_neg same]
    exact found

theorem staysUnmoved (same : Unmoved s t) : ShutdownStays s t := by
  intro p x found mode
  obtain ⟨new,after,equal⟩ := same.target found
  exact ⟨new,after,(viewMode equal).trans mode⟩

theorem ShutdownStays.trans {u : Service} (first : ShutdownStays s t) (second : ShutdownStays t u) :
    ShutdownStays s u := by
  intro p x found mode
  obtain ⟨y,next,stays⟩ := first p x found mode
  exact second p y next stays

theorem staysBackground (moved : Background s t) : ShutdownStays s t := by
  cases moved with
  | unmoved same => exact staysUnmoved same
  | shutDown p x found up same =>
    exact ShutdownStays.trans (staysModify fun y _ _ => shutDownMode y) (staysUnmoved same)
  | removed display same =>
    have stays := staysUnmoved same
    exact stays
  | timedOut p x inside online same =>
    have first : ShutdownStays (s.log (.timedOut p x.connectorId))
        ((s.log (.timedOut p x.connectorId)).modify p detach) := by
      apply staysModify
      intro y there mode
      cases Option.some.inj ((SharedPool.entriesGet inside).symm.trans there)
      rw [online] at mode
      contradiction
    have whole := first.trans (staysUnmoved same)
    exact whole

theorem staysLaunch : ShutdownStays s (s.launch x) :=
  fun _ y found mode => ⟨y,SharedPool.getInsertOld found,mode⟩

theorem staysTerminated (display connectorId : Int) (s : Service) :
    ShutdownStays s (busConnectorTerminated display connectorId s) := by
  unfold busConnectorTerminated
  cases found : findDisplaySession s.pool display with
  | none => exact staysRefl s
  | some entry =>
    obtain ⟨p,x⟩ := entry
    have there := (displaySource found).2.1
    have pool : (reported p x connectorId s).pool = s.pool := by
      unfold reported
      split
      · rfl
      · split <;> rfl
    have noted : ShutdownStays s (reported p x connectorId s) := by
      intro q y here mode
      rw [pool]
      exact ⟨y,here,mode⟩
    dsimp only
    split
    · exact noted
    split
    · rename_i online
      have detached : ShutdownStays (reported p x connectorId s) ((reported p x connectorId s).modify p detach) := by
        apply staysModify
        intro y here mode
        rw [pool,there] at here
        cases Option.some.inj here
        rw [online] at mode
        contradiction
      exact noted.trans detached
    · exact noted

theorem staysUserSession (launch : Launch) (socket : Bool) (oldScreen connectorId : Int)
    (userName remoteAddr connType : String) (s : Service) :
    ShutdownStays s
      (busStartUserSession c launch socket oldScreen connectorId userName remoteAddr connType s).2 := by
  obtain ⟨display,later,same⟩ | ⟨login,loginSess,_,⟨old,oldSess,_,_,_,same⟩ | ⟨_,x,launched,same⟩⟩ :=
    userSessionSource (c := c) launch socket oldScreen connectorId userName remoteAddr connType s
  · rw [same]
    exact staysRefl s
  · rw [same]
    have first := staysModify (s := s) (p := old) (f := continueScreen loginSess connectorId remoteAddr connType)
      fun _ _ mode => mode
    have second := first.trans (staysModify (p := login) (f := moveEncryption) fun _ _ mode => mode)
    exact second
  · rw [same]
    have first := staysLaunch (s := s) (x := updateScreen c loginSess connectorId remoteAddr connType x)
    have second := first.trans (staysModify (p := login) (f := moveEncryption) fun _ _ mode => mode)
    exact second

theorem stepShutdown (s : Service) (a : Action) (order : InOrder s a) : ShutdownStays s (step c s a) := by
  cases quiet : background a with
  | true => exact staysBackground (stepBackground a quiet s)
  | false =>
    cases a with
    | startLoginSession launch connectorId remoteAddr connType =>
      simp only [step]
      obtain ⟨display,later,same⟩ | ⟨x,launched,same⟩ :=
        loginSessionSource (c := c) launch connectorId.id remoteAddr connType s
      · rw [same]
        exact staysRefl s
      · rw [same]
        exact staysLaunch
    | startUserSession launch socket oldScreen connectorId userName remoteAddr connType =>
      exact staysUserSession launch socket oldScreen connectorId.id userName remoteAddr connType s
    | connectorConnected display connectorId =>
      simp only [step]
      unfold busConnectorConnected
      cases found : findDisplaySession s.pool display with
      | none => exact staysRefl s
      | some entry =>
        obtain ⟨p,x⟩ := entry
        have modified : ShutdownStays s (s.modify p
            fun x => {x with connectorId := connectorId.id,mode := .connected}) := by
          apply staysModify
          intro y here mode
          cases Option.some.inj ((displaySource found).2.1.symm.trans here)
          exact absurd mode (order p x found)
        exact modified
    | connectorTerminated display connectorId => exact staysTerminated display connectorId.id s
    | setSessionPolicy display policy =>
      have set (p : XvfbSessionPtr) (policy : SessionPolicy) :
          ShutdownStays s (s.modify p fun x => {x with policy}) := staysModify fun _ _ mode => mode
      simp only [step]
      obtain same | ⟨p,policy',same⟩ := policySource display policy s
      · rw [same]
        exact staysRefl s
      · rw [same]
        exact set p policy'
    | _ => contradiction

/-! A run keeps the attachments exactly when its requests come in order. -/

theorem displacedIgnored (s : Service) (a : Action) (order : InOrder s a) : DisplacedIgnored c s a := by
  cases a with
  | connectorTerminated display connectorId =>
    intro p x found displaced
    have off := order p x found displaced
    have other : connectorId.id ≠ -1 := by
      have := connectorId.positive
      omega
    simp only [step]
    unfold busConnectorTerminated reported
    rw [found]
    simp [other,displaced.1,off]
  | _ => trivial

/- A session that is resumed goes by its new connector alone. -/
theorem keptResumes {launch : Launch} {socket : Bool} {oldScreen : Int} {connectorId : Pid}
    {userName remoteAddr connType : String}
    (kept : AttachmentKept c s (.startUserSession launch socket oldScreen connectorId userName remoteAddr connType)) :
    InOrder s (.startUserSession launch socket oldScreen connectorId userName remoteAddr connType) := by
  intro p x rest found sessions alive
  obtain ⟨⟨login,loginSess⟩,here⟩ := Option.isSome_iff_exists.mp found
  have front : (p,x) ∈ findUserSessions s.pool userName := by
    rw [sessions]
    exact List.mem_cons_self
  have there := SharedPool.entriesGet (memUserSessions.mp front).1
  have exact := kept.exact
  simp only [step] at exact
  unfold busStartUserSession at exact
  rw [here] at exact
  dsimp only at exact
  rw [sessions] at exact
  dsimp only at exact
  rw [if_pos alive] at exact
  -- the session with the new connector, whether or not it is the login session too
  have first := SharedPool.getModifySelf (f := continueScreen loginSess connectorId.id remoteAddr connType) there
  obtain ⟨y,after,mode,connector⟩ : ∃ y, ((s.pool.modify p
      (continueScreen loginSess connectorId.id remoteAddr connType)).modify login moveEncryption).get p =
        some y ∧ y.mode = x.mode ∧ y.connectorId = connectorId.id := by
    by_cases same : login = p
    · subst same
      exact ⟨_,SharedPool.getModifySelf first,rfl,rfl⟩
    · refine ⟨continueScreen loginSess connectorId.id remoteAddr connType x,?_,rfl,rfl⟩
      rw [SharedPool.getModify,if_neg same]
      exact first
  have agrees := exact p y after
  rw [mode,connector] at agrees
  exact agrees

theorem keptConnects {display : Int} {connectorId : Pid}
    (kept : AttachmentKept c s (.connectorConnected display connectorId)) :
    InOrder s (.connectorConnected display connectorId) := by
  intro p x found mode
  obtain ⟨y,there,stays⟩ := kept.shutdown p x (displaySource found).2.1 mode
  simp only [step] at there
  unfold busConnectorConnected at there
  rw [found] at there
  have now := SharedPool.getModifySelf (f := fun x : XvfbSession =>
    {x with connectorId := connectorId.id,mode := .connected}) (displaySource found).2.1
  cases Option.some.inj (now.symm.trans there)
  contradiction

theorem keptTerminates {display : Int} {connectorId : Pid}
    (kept : AttachmentKept c s (.connectorTerminated display connectorId)) :
    InOrder s (.connectorTerminated display connectorId) := by
  intro p x found displaced online
  have ignored := kept.displaced p x found displaced
  have there := (displaySource found).2.1
  have detached : (step c s (.connectorTerminated display connectorId)).pool.get p = some (detach x) := by
    simp only [step]
    unfold busConnectorTerminated
    rw [found]
    simp only [online,reduceCtorEq,if_false,if_true]
    unfold reported
    split
    · exact SharedPool.getModifySelf there
    · exact SharedPool.getModifySelf there
  rw [ignored] at detached
  have mode := congrArg XvfbSession.mode (Option.some.inj (there.symm.trans detached))
  rw [online] at mode
  contradiction

theorem keptInOrder (s : Service) (a : Action) (h : Attachments s) :
    AttachmentKept c s a ↔ InOrder s a := by
  constructor
  · intro kept
    cases a with
    | startUserSession => exact keptResumes kept
    | connectorConnected => exact keptConnects kept
    | connectorTerminated => exact keptTerminates kept
    | _ => trivial
  · intro order
    exact ⟨(stepAttachments s a order h).exact,stepShutdown s a order,displacedIgnored s a order⟩

end

theorem startAttachments : Attachments start := by
  refine ⟨startWellformed,?_,?_⟩
  · intro p x found
    simp [start] at found
  · intro p connectorId alive
    simp [start,live] at alive

theorem attachmentsKeptIff (c : Config) (actions : List Action) :
    Meets (step c) (AttachmentKept c) start actions ↔ Meets (step c) InOrder start actions :=
  meetsCongr stepAttachments (fun s a h => keptInOrder s a h) startAttachments

/-! The connector 501 of alice is replaced by 502 before it has gone. -/

def takeoverRun : List Action :=
  [.startLoginSession hostLaunch (hostPid 501) "10.0.0.1" "ltsm",
    .startUserSession hostLaunch true 101 (hostPid 501) "alice" "10.0.0.1" "ltsm",
    .connectorConnected 102 (hostPid 501),
    .startLoginSession hostLaunch (hostPid 502) "10.0.0.2" "ltsm",
    .startUserSession hostLaunch true 103 (hostPid 502) "alice" "10.0.0.2" "ltsm",
    .connectorConnected 102 (hostPid 502),
    .connectorTerminated 102 (hostPid 501)]

def takeoverState (steps : Nat) : Service :=
  run (step (hostConfig "authtake")) start (takeoverRun.take steps)

/- The mode and connector of the session of alice, and whether the connector is live. -/
def aliceAfter (steps : Nat) : Option (SessionMode × Int × Bool) :=
  ((takeoverState steps).pool.get 1).map fun x =>
    (x.mode,x.connectorId,live 1 502 (takeoverState steps).history)

theorem lateReportDetaches :
    aliceAfter 5 = some (.connected,502,false) ∧ aliceAfter 6 = some (.connected,502,true) ∧
    aliceAfter 7 = some (.disconnected,0,true) ∧
    ¬Meets (step (hostConfig "authtake")) (AttachmentKept (hostConfig "authtake")) start takeoverRun := by
  have overwritten : aliceAfter 5 = some (.connected,502,false) := by decide
  refine ⟨overwritten,by decide,by decide,?_⟩
  intro kept
  have resumed : AttachedExactly (takeoverState 5) := kept.2.2.2.2.1.exact
  unfold aliceAfter at overwritten
  obtain ⟨x,there,image⟩ := Option.map_eq_some_iff.mp overwritten
  simp only [Prod.mk.injEq] at image
  obtain ⟨mode,connector,dead⟩ := image
  have agrees := resumed 1 x there
  rw [mode,connector,dead] at agrees
  simp at agrees

end Ltsm.SessionAttachment
