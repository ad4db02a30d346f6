import Ltsm.LoginClaims

/-! The policy AuthLock. A session of a user is to have one connector; the policy is
tested when an attempt passes PAM, and the request that takes the session does not
look at it again. -/
namespace Ltsm.AuthLock
open Library XvfbSessions DBusAdaptor SessionMoves LoginMoves SessionAttachment ConnectorLogin
  CredentialBinding LoginWindow LoginClaims

def Exclusive (s : System) : Prop :=
  ∀ p x, s.service.pool.get p = some x → x.policy = .authLock →
    ∀ a b, AttachedTo s p x a → AttachedTo s p x b → a = b

/- Where the policy lets a user pass for a display whose connector waits for a login, no
connector is in the middle of a login of that user, and the user is not the account of
the login screens. -/
def PassedApart (c : Config) (s : System) (index : Nat) (env : Environment) : Prop :=
  ∀ pass ∈ letsPass c env s.service index, ∀ x ∈ s.service.pool.get pass.1,
    pass.2 ≠ ltsmUserConn ∧ ∀ k ∈ s.connectors, k.phase = .listening → k.displayNum = x.displayNum →
      window s.service.signals k = none →
        ∀ other ∈ s.connectors, window s.service.signals other ≠ some pass.2
instance (c s index env) : Decidable (PassedApart c s index env) :=
  inferInstanceAs (Decidable (∀ pass ∈ letsPass c env s.service index, ∀ x ∈ s.service.pool.get pass.1, _))

/- A connector does not report its end for a session that someone else is connected to. -/
def EndsOwn (s : System) (index : Nat) : Prop :=
  ∀ k ∈ s.connectors[index]?, k.phase ≠ .ended →
    ∀ e ∈ findDisplaySession s.service.pool k.displayNum, e.2.mode = .connected → e.2.connectorId = k.pid.id
instance (s index) : Decidable (EndsOwn s index) :=
  inferInstanceAs (Decidable (∀ k ∈ s.connectors[index]?, k.phase ≠ .ended → _))

def LoginsApart (c : Config) (s : System) : SystemAction → Prop
  | .service (.exec index env) => c.sessionPolicy = .authLock → PassedApart c s index env
  | .terminate index => c.sessionPolicy = .authLock → EndsOwn s index
  | _ => True
instance (c s a) : Decidable (LoginsApart c s a) := by
  unfold LoginsApart
  split <;> infer_instance

structure Secured (s : System) : Prop where
  housed : Housed s.service
  waits : NoneWaits s.service
  locked : Locked s

structure Guarded (s : System) : Prop extends Secured s where
  bound : Bound s

section
variable {s : System} {t : Service} {p q : XvfbSessionPtr} {x y : XvfbSession} {c : Config}
  {env : Environment} {k : Connector} {ks : List Connector} {index : Nat} {user : String}

/- No login is announced for the display of a user. -/
theorem unheard {s : Service} (record : LoginRecord s) (own : OwnDisplays s.pool) (housed : Housed s)
    (found : s.pool.get p = some x) (account : x.user ≠ ltsmUserConn) (n : Nat) :
    firstLogin x.displayNum (s.signals.drop n) = none := by
  cases first : firstLogin x.displayNum (s.signals.drop n) with
  | none => rfl
  | some user =>
    obtain ⟨uid,inside⟩ := firstMember first
    obtain ⟨q,y,there,display,shown,_⟩ := record.sent _ _ _ (List.mem_of_mem_drop inside)
    obtain ⟨rfl,rfl⟩ := SharedPool.uniqueSame own there found display
    exact absurd (housed.screens q y shown there) account

theorem connectedSilent (h : Guarded s) (inside : k ∈ s.connectors) (phase : k.phase = .connected) :
    window s.service.signals k = none := by
  obtain ⟨p,x,found,display,account⟩ := h.locked.connected k inside phase
  unfold window
  rw [phase,← display]
  exact unheard h.bound.record h.bound.wellformed.own h.housed found account k.received

/- The policy lets nobody pass while a connector has a session of the user that is up. -/
theorem allowsUnclaimed (h : Guarded s) (allows : policyAllows s.service.pool user = true)
    (account : user ≠ ltsmUserConn) (entry : (q,y) ∈ s.service.pool.entries) (owner : y.user = user)
    (up : y.mode ≠ .shutdown) (pid : Int) : live q pid s.service.history = false := by
  cases alive : live q pid s.service.history with
  | false => rfl
  | true =>
    have found := SharedPool.entriesGet entry
    obtain ⟨online,_⟩ := h.locked.kept q y pid found up alive
    have present : (findUserSession s.service.pool user).isSome = true := by
      unfold findUserSession
      rw [List.find?_isSome]
      exact ⟨(q,y),entry,by simp [online,owner]⟩
    obtain ⟨⟨r,z⟩,first⟩ := Option.isSome_iff_exists.mp present
    obtain ⟨there,mode,name⟩ := userSource first
    -- the search may find no other session of the user
    have same : r = q := h.locked.single r z q y ⟨there,.inl mode⟩ ⟨entry,.inl up⟩ (name.trans owner.symm)
      (name ▸ account)
    subst same
    cases Option.some.inj (found.symm.trans (SharedPool.entriesGet there))
    have busy : busySession s.service.pool user = some y := by
      unfold busySession
      rw [first]
      exact if_pos ⟨h.housed.displays r y found,online⟩
    have policy := h.housed.policies r y found
    rw [if_neg (name ▸ account)] at policy
    unfold policyAllows at allows
    rw [busy] at allows
    simp [policy] at allows

theorem passAllows {s : Service} (passes : letsPass c env s index = some (p,user)) :
    policyAllows s.pool user = true := by
  unfold letsPass at passes
  split at passes
  · split at passes
    · rename_i allowed
      cases Option.some.inj passes
      simp only [Bool.and_eq_true] at allowed
      exact allowed.2
    · contradiction
  · split at passes
    · rename_i allowed
      cases Option.some.inj passes
      simp only [Bool.and_eq_true] at allowed
      exact allowed.2
    · contradiction
  · contradiction

theorem guardedLocked {s : Service} (h : Housed s) : UsersLocked s := by
  intro p x found account
  have policy := h.policies p x found
  rw [if_neg account] at policy
  exact policy

/-! The steps of the service. -/

theorem execSecured (h : Guarded s) (index : Nat) (env : Environment)
    (bound : Bound ⟨exec c index env s.service,s.connectors⟩)
    (apart : PassedApart c s index env) : Secured ⟨exec c index env s.service,s.connectors⟩ := by
  obtain ⟨⟨sent,grown,passed⟩,waits⟩ := execSends (c := c) (guardedLocked h.housed) h.waits index env
    fun p user x passes found => (apart (p,user) passes x found).1
  obtain ⟨fewer,kept,screens⟩ := lostBackground h.locked.kept (execBackground (c := c) index env s.service)
  have housed := h.housed.keeps fewer.sessions fewer.display screens
  -- whoever hears of a login now waits on the display it was let through for
  have gains (k : Connector) (inside : k ∈ s.connectors) (user : String)
      (gained : Gains s.service.signals sent k user) : k.phase = .listening ∧ ∃ p x,
        letsPass c env s.service index = some (p,user) ∧ s.service.pool.get p = some x ∧ x.displayNum = k.displayNum := by
    rcases windowSent gained.2 with old | ⟨_,phase,uid,there⟩
    · rw [gained.1] at old
      contradiction
    · refine ⟨?_,passed _ _ uid there⟩
      rcases phase with listens | connected
      · exact listens
      · obtain ⟨p,x,found,display,account⟩ := h.locked.connected k inside connected
        obtain ⟨y,after,same⟩ := fewer.sessions.target found
        have deaf := unheard bound.record bound.wellformed.own housed after (personaUser same ▸ account) k.received
        have hears := gained.2
        unfold window at hears
        rw [connected,← grown,← display,← personaDisplay same,deaf] at hears
        contradiction
  refine ⟨housed,waits,h.locked.advance h.bound.wellformed.own fewer kept (movesAll _ _) grown ?_ ?_⟩
  · intro k inside user gained
    obtain ⟨listens,p,x,passes,found,display⟩ := gains k inside user gained
    obtain ⟨account,free⟩ := apart (p,user) passes x found
    refine ⟨account,?_⟩
    intro a claim
    rcases claim with ⟨other,there,_,opened⟩ | ⟨q,y,entry,owner,up,alive⟩
    · exact free k inside listens display.symm gained.1 other there opened
    · have dead := allowsUnclaimed h (passAllows passes) account entry owner up a.id
      rw [dead] at alive
      contradiction
  · intro k inside other there user gained gainedToo
    obtain ⟨listens,p,x,passes,found,display⟩ := gains k inside user gained
    obtain ⟨listensToo,q,y,passesToo,foundToo,displayToo⟩ := gains other there user gainedToo
    cases Option.some.inj (passes.symm.trans passesToo)
    cases Option.some.inj (found.symm.trans foundToo)
    exact h.locked.screen k inside other there listens listensToo (display.symm.trans displayToo)

/- The other permitted steps of the service announce no login. -/
theorem permittedSends {s : Service} (waits : NoneWaits s) (a : Action) (allowed : permitted s a = true)
    (other : ∀ index env, a ≠ .exec index env) :
    Sends (fun _ _ => False) s (step c s a) ∧ NoneWaits (step c s a) := by
  have attempted (display : Int) (task : XvfbSessionPtr → Task) (attempt : ∀ p q user, task p ≠ .pamWait q user) :
      Sends (fun _ _ => False) s (onSession display (fun p => .post (task p)) s) ∧
        NoneWaits (onSession display (fun p => .post (task p)) s) := by
    obtain same | ⟨p,_,_,same⟩ := sessionSource display _ s
    · rw [same]
      exact ⟨.refl s,waits⟩
    · rw [same]
      exact ⟨sendsNothing rfl,waitsPost (attempt p) waits⟩
  cases quiet : quietAction a with
  | true => exact ⟨sendsQuiet (stepQuiet a quiet s),quietWaits (stepQuiet a quiet s) waits⟩
  | false =>
    cases a with
    | exec index env => exact absurd rfl (other index env)
    | setAuthenticateToken display user => exact attempted display _ (by simp)
    | setAuthenticateLoginPass display user password => exact attempted display _ (by simp)
    | _ => contradiction

theorem permittedSecured (h : Guarded s) (a : Action) (allowed : permitted s.service a = true)
    (other : ∀ index env, a ≠ .exec index env) : Secured ⟨step c s.service a,s.connectors⟩ := by
  have quiet : background a = true := by
    cases a with
    | setAuthenticateToken | setAuthenticateLoginPass => rfl
    | _ => exact allowed
  obtain ⟨sends,waits⟩ := permittedSends (c := c) h.waits a allowed other
  obtain ⟨fewer,kept,screens⟩ := lostBackground h.locked.kept (stepBackground (c := c) a quiet s.service)
  exact ⟨h.housed.keeps fewer.sessions fewer.display screens,waits,
    h.locked.silent h.bound.wellformed.own fewer kept (movesAll _ _) sends⟩

/-! The steps of the connectors. -/

/- One connector moves on; the service loses at most. -/
theorem setSecured (h : Secured s) (own : OwnDisplays s.service.pool) (lost : Lost s.service t) (sends : Sends (fun _ _ => False) s.service t)
    (waits : NoneWaits t) (found : s.connectors[index]? = some k) {f : Connector → Connector}
    (moves : Moves s.service k (f k)) : Secured (System.setConnector index f {s with service := t}) := by
  obtain ⟨fewer,kept,screens⟩ := lost
  refine ⟨h.housed.keeps fewer.sessions fewer.display screens,waits,h.locked.silent own fewer kept ?_ sends⟩
  apply forallModify (Moves.refl s.service)
  intro a here
  cases Option.some.inj (found.symm.trans here)
  exact moves

/- A signal that is no login for the display of the connector. -/
theorem movesSkip {s : Service} (listens : k.phase.listens = true)
    (same : firstLogin k.displayNum (s.signals.drop k.received) =
      firstLogin k.displayNum (s.signals.drop (k.received + 1))) :
    Moves s k {k with received := k.received + 1} := by
  refine ⟨rfl,fun phase => ⟨phase,rfl⟩,id,fun phase => .inl ⟨phase,rfl⟩,?_,fun _ aims => .inl aims⟩
  intro user opened
  unfold window at opened ⊢
  cases phase : k.phase with
  | listening | connected =>
    rw [phase] at opened
    exact same.trans opened
  | _ => simp [phase,Phase.listens] at listens

theorem receiveSecured (h : Guarded s) (index : Nat) : Secured (receive index s) := by
  have own := h.bound.wellformed.own
  unfold receive
  cases found : s.connectors[index]? with
  | none => exact h.toSecured
  | some k =>
    have inside : k ∈ s.connectors := List.mem_of_getElem? found
    dsimp only
    cases next : s.service.signals[k.received]? with
    | none => exact h.toSecured
    | some signal =>
      dsimp only
      split
      · rename_i listens
        have rest : s.service.signals.drop k.received = signal :: s.service.signals.drop (k.received + 1) := by
          obtain ⟨short,here⟩ := List.getElem?_eq_some_iff.mp next
          rw [List.drop_eq_getElem_cons short,here]
        refine setSecured h.toSecured own (lostUnmoved h.locked.kept (.refl _)) (.refl _) h.waits found ?_
        unfold onSignal
        cases signal with
        | loginSuccess display user uid =>
          dsimp only
          split
          · rename_i other
            exact movesSkip listens (by rw [rest,firstLogin,if_neg other])
          · rename_i here
            have first : firstLogin k.displayNum (s.service.signals.drop k.received) = some user := by
              rw [rest,firstLogin,if_pos (not_not.mp here)]
            have opened : window s.service.signals k = some user := by
              unfold window
              cases phase : k.phase with
              | listening | connected => exact first
              | _ => simp [phase,Phase.listens] at listens
            refine ⟨rfl,fun phase => by contradiction,?_,fun phase => by contradiction,?_,fun d aims => by contradiction⟩
            · intro past
              -- a connector that shows a user session hears of no login for its display
              cases phase : k.phase with
              | connected =>
                rw [connectedSilent h inside phase] at opened
                contradiction
              | listening => simp [phase,pastLogin] at past
              | _ => simp [phase,Phase.listens] at listens
            · intro name later
              exact opened.trans later
        | _ => exact movesSkip listens (by rw [rest]; rfl)
      · exact h.toSecured

theorem movesFail {s : Service} : Moves s k {k with phase := .failed} :=
  ⟨rfl,fun phase => by contradiction,fun _ => rfl,fun phase => by contradiction,fun _ opened => by contradiction,
    fun _ aims => by contradiction⟩

theorem movesEnd {s : Service} : Moves s k {k with phase := .ended} :=
  ⟨rfl,fun phase => by contradiction,fun _ => rfl,fun phase => by contradiction,fun _ opened => by contradiction,
    fun _ aims => by contradiction⟩

theorem showSecured (h : Guarded s) (index : Nat) (xcb : Bool) : Secured (showDisplay index xcb s) := by
  have own := h.bound.wellformed.own
  unfold showDisplay
  cases found : s.connectors[index]? with
  | none => exact h.toSecured
  | some k =>
    dsimp only
    split
    · rename_i user newDisplay phase
      have stays := lostUnmoved h.locked.kept (.refl s.service)
      have shows (displayNum : Int) (same : displayNum = newDisplay) :
          Moves s.service k {k with displayNum,phase := .shown user} := by
        refine ⟨rfl,fun phase => by contradiction,fun _ => rfl,fun phase => by contradiction,?_,?_⟩
        · intro name opened
          unfold window
          rw [phase]
          exact opened
        · intro d aims
          left
          unfold target
          rw [phase]
          exact (congrArg some same.symm).trans aims
      split
      · split
        · have moved := lostUnmoved h.locked.kept (shutdownDisplayUnmoved k.displayNum s.service)
          have quiet := shutdownDisplayQuiet k.displayNum s.service
          exact setSecured h.toSecured own moved (sendsQuiet quiet) (quietWaits quiet h.waits) found (shows newDisplay rfl)
        · exact setSecured h.toSecured own stays (.refl _) h.waits found movesFail
      · rename_i same
        exact setSecured h.toSecured own stays (.refl _) h.waits found (shows k.displayNum (not_not.mp same).symm)
    · exact h.toSecured

theorem terminateSecured (h : Guarded s) (index : Nat) (apart : EndsOwn s index) : Secured (terminate index s) := by
  have own := h.bound.wellformed.own
  unfold terminate
  cases found : s.connectors[index]? with
  | none => exact h.toSecured
  | some k =>
    dsimp only
    split
    · exact h.toSecured
    · rename_i active
      have quiet := terminatedQuiet k.displayNum k.pid.id s.service
      exact setSecured h.toSecured own (lostTerminated h.locked.kept k.displayNum k.pid fun p x => apart k found active (p,x))
        (sendsQuiet quiet) (quietWaits quiet h.waits) found movesEnd

theorem reportSecured (h : Guarded s) (index : Nat) : Secured (reportConnected index s) := by
  have own := h.bound.wellformed.own
  unfold reportConnected
  cases here : s.connectors[index]? with
  | none => exact h.toSecured
  | some k =>
    have inside : k ∈ s.connectors := List.mem_of_getElem? here
    dsimp only
    split
    · rename_i user phase
      have aims : target k = some k.displayNum := by
        unfold target
        rw [phase]
      have shown (t : Service) (signals : t.signals = s.service.signals) :
          Moves t k {k with phase := .connected} := by
        refine ⟨rfl,fun phase => by contradiction,fun _ => rfl,fun _ => .inr aims,?_,fun d aims => by contradiction⟩
        intro name opened
        obtain ⟨p,x,found,display,logs⟩ := h.locked.targets k inside _ aims
        have deaf := unheard h.bound.record h.bound.wellformed.own h.housed found
          (h.locked.users k inside _ logs) k.received
        rw [display,← signals] at deaf
        exact absurd (deaf.symm.trans opened) (by simp)
      have quiet := connectedQuiet k.displayNum k.pid.id s.service
      have waits := quietWaits quiet h.waits
      unfold busConnectorConnected at quiet waits ⊢
      cases found : findDisplaySession s.service.pool k.displayNum with
      | none => exact setSecured h.toSecured own (lostUnmoved h.locked.kept (.refl _)) (.refl _) h.waits here (shown _ rfl)
      | some entry =>
        obtain ⟨p,x⟩ := entry
        rw [found] at quiet waits
        obtain ⟨entry,there,display⟩ := displaySource found
        have reported := h.locked.report h.bound.wellformed.own inside (display.symm ▸ aims)
          (by rw [phase]; rfl) entry
        have housed : Housed ((s.service.modify p fun x => {x with connectorId := k.pid.id,mode := .connected}).log
            (.connected p k.pid.id)) := by
          refine h.housed.keeps (SharedPool.alikeModify fun _ => rfl) le_rfl ?_
          intro q shown
          rcases List.mem_cons.mp shown with new | old
          · contradiction
          · exact old
        have unique : OwnDisplays (s.service.pool.modify p fun x => {x with connectorId := k.pid.id,mode := .connected}) :=
          SharedPool.uniqueModify (fun _ => rfl) own
        have lost := lostUnmoved reported.kept (unmovedEmit (.sessionOnline x.displayNum x.user) _)
        have secured : Secured ⟨(s.service.modify p fun x => {x with connectorId := k.pid.id,mode := .connected}).log
            (.connected p k.pid.id),s.connectors⟩ := ⟨housed,waits,reported⟩
        exact setSecured secured unique lost (sendsQuiet (quietEmit rfl _)) waits here (shown _ rfl)
    · exact h.toSecured

/- A login screen is put into the pool. -/
theorem screenSecured (h : Guarded s) (account : x.user = ltsmUserConn) (policy : x.policy = .authTake)
    (display : x.displayNum = s.service.freeDisplay) :
    Secured ⟨(s.service.launch x).log (.loginScreen s.service.pool.heap.length),s.connectors⟩ := by
  have launched : Locked ⟨s.service.launch x,s.connectors⟩ :=
    h.locked.launch h.bound.wellformed display fun other => absurd account other
  have housed : Housed (s.service.launch x) :=
    h.housed.launch display (by rw [policy,if_pos account]) h.bound.record.screens
  refine ⟨⟨housed.policies,housed.next,housed.displays,?_⟩,h.waits,?_⟩
  · intro p y shown found
    rcases List.mem_cons.mp shown with new | old
    · cases new
      rcases SharedPool.insertSource found with ⟨_,rfl⟩ | before
      · exact account
      · exact absurd (SharedPool.getAllocated before) (lt_irrefl _)
    · exact housed.screens p y old found
  · exact launched.silent (h.bound.wellformed.launch display).own (logSubsides fun _ _ => id)
      launched.kept (movesAll _ _) (sendsNothing rfl)

theorem connectSecured (h : Guarded s) (pid : Pid) (launch : Launch) (xcb : Bool) (remoteAddr connType : String) :
    Secured (connect c pid launch xcb remoteAddr connType s) := by
  unfold connect
  split
  · exact h.toSecured
  rename_i fresh
  obtain ⟨display,later,same⟩ | ⟨x,launched,same⟩ :=
    loginSessionSource (c := c) launch pid.id remoteAddr connType s.service
  · have lost : Lost s.service {s.service with freeDisplay := display} :=
      lostUnmoved h.locked.kept ⟨rfl,fun _ => rfl,later,rfl⟩
    rw [same]
    exact ⟨h.housed.keeps lost.fewer.sessions lost.fewer.display lost.screens,h.waits,
      h.locked.silent h.bound.wellformed.own lost.fewer lost.kept (movesAll _ _) (sendsNothing rfl)⟩
  · rw [same]
    have shown := screenSecured (x := {x with remoteAddr,conntype := connType,connectorId := pid.id}) h
      launched.user launched.policy launched.displayNum
    dsimp only
    split
    · refine ⟨shown.housed,shown.waits,shown.locked.join rfl rfl (Int.lt_succ _) ?_ ?_⟩
      · intro other inside taken
        exact fresh (List.any_eq_true.mpr ⟨other,inside,decide_eq_true taken⟩)
      · intro other inside listens equal
        have below := h.locked.below other inside listens
        change other.displayNum = s.service.freeDisplay at equal
        omega
    · exact shown

/- Nobody else has a claim on the session of a user whose login has been heard of. -/
theorem heardAlone (h : Guarded s) (inside : k ∈ s.connectors) (phase : k.phase = .loginSuccess user) {other : Pid}
    (claim : Claims s user other) : other = k.pid := by
  have opened : window s.service.signals k = some user := by
    unfold window
    rw [phase]
  exact h.locked.claims user other k.pid (h.locked.users k inside user opened) claim (.inl ⟨k,inside,rfl,opened⟩)

theorem onlyConnector (h : Guarded s) {other : Connector} (inside : k ∈ s.connectors)
    (there : other ∈ s.connectors) (same : other.pid = k.pid) : other = k :=
  List.inj_on_of_nodup_map h.locked.pids there inside same

theorem heardUnreported (h : Guarded s) (inside : k ∈ s.connectors) (phase : k.phase = .loginSuccess user)
    (entry : (p,x) ∈ s.service.pool.entries) (owner : x.user = user) (up : x.mode ≠ .shutdown) (pid : Int) :
    live p pid s.service.history = false := by
  cases alive : live p pid s.service.history with
  | false => rfl
  | true =>
    obtain ⟨_,reporter,there,number,past⟩ := h.locked.reporters p pid alive
    have same := onlyConnector h inside there
      (heardAlone h inside phase (.inr ⟨p,x,entry,owner,up,number ▸ alive⟩))
    rw [same,phase] at past
    contradiction

/- A connector is given a session of the user that is up, or none. -/
theorem movesStart {s : Service} (phase : k.phase = .loginSuccess user) {newDisplay : Int}
    (takes : 0 ≤ newDisplay → Takes s k newDisplay) :
    Moves s k {k with phase := if newDisplay < 0 then .failed else .started user newDisplay} := by
  split
  · exact movesFail
  · rename_i given
    refine ⟨rfl,fun other => by contradiction,fun _ => rfl,fun other => by contradiction,?_,?_⟩
    · intro name opened
      unfold window
      rw [phase]
      exact opened
    · intro d aims
      cases Option.some.inj aims
      exact .inr (takes (by omega))

/- A user without a session that is up is given one. -/
theorem createdSecured (h : Guarded s) (inside : k ∈ s.connectors) (phase : k.phase = .loginSuccess user)
    (absent : findUserSessions s.service.pool user = []) (owner : x.user = user) (policy : x.policy = .authLock)
    (display : x.displayNum = s.service.freeDisplay) : Secured ⟨s.service.launch x,s.connectors⟩ := by
  have account : x.user ≠ ltsmUserConn := by
    rw [owner]
    apply h.locked.users k inside
    unfold window
    rw [phase]
  refine ⟨h.housed.launch display (by rw [policy,if_neg account]) h.bound.record.screens,h.waits,?_⟩
  apply h.locked.launch h.bound.wellformed display
  intro _ q y up taken
  rw [owner] at taken
  rcases up.2 with mode | ⟨other,there,aims⟩
  · have listed := memUserSessions.mpr ⟨up.1,mode,taken⟩
    rw [absent] at listed
    contradiction
  · obtain ⟨r,z,found,number,logs⟩ := h.locked.targets other there _ aims
    obtain ⟨rfl,rfl⟩ := SharedPool.uniqueSame h.bound.wellformed.own found (SharedPool.entriesGet up.1) number
    have alone := onlyConnector h inside there (heardAlone h inside phase (.inl ⟨other,there,rfl,taken ▸ logs⟩))
    unfold target at aims
    rw [alone,phase] at aims
    contradiction

theorem startSecured (lock : c.sessionPolicy = .authLock) (h : Guarded s) (index : Nat) (launch : Launch)
    (socket : Bool) : Secured (startUserSession c index launch socket s) := by
  have own := h.bound.wellformed.own
  unfold startUserSession
  cases here : s.connectors[index]? with
  | none => exact h.toSecured
  | some k =>
    have inside : k ∈ s.connectors := List.mem_of_getElem? here
    dsimp only
    split
    · rename_i user phase
      have opened : window s.service.signals k = some user := by
        unfold window
        rw [phase]
      obtain ⟨display,later,same⟩ | ⟨login,loginSess,_,⟨old,oldSess,rest,sessions,_,same⟩ | ⟨absent,x,launched,same⟩⟩ :=
        userSessionSource (c := c) launch socket k.displayNum k.pid.id user k.remoteAddr k.connectorType s.service
      · have lost : Lost s.service {s.service with freeDisplay := display} :=
          lostUnmoved h.locked.kept ⟨rfl,fun _ => rfl,later,rfl⟩
        rw [same]
        exact setSecured h.toSecured own lost (sendsNothing rfl) h.waits here (movesStart phase (by omega))
      · rw [same]
        have front : (old,oldSess) ∈ findUserSessions s.service.pool user := by
          rw [sessions]
          exact List.mem_cons_self
        obtain ⟨entry,up,owner⟩ := memUserSessions.mp front
        have found := SharedPool.entriesGet entry
        have dead := heardUnreported h inside phase entry owner up
        have resumed : Lost s.service (s.service.modify old
            (continueScreen loginSess k.pid.id k.remoteAddr k.connectorType)) := by
          refine ⟨subsidesModify (fun _ => rfl) fun _ _ => id,keptModify h.locked.kept ?_,fun _ => id⟩
          intro y pid there _ alive
          rw [dead pid] at alive
          contradiction
        have moved := resumed.trans (lostUnmoved resumed.kept
          ((unmovedModify (p := login) (f := moveEncryption) (fun _ => rfl) _).trans
            (unmovedEmit (.sessionReconnect k.remoteAddr k.connectorType) _)))
        have lost := moved.trans (lostLog moved.kept (.resumed login old user k.pid.id) (by simp)
          fun _ _ => id)
        have sends : Sends (fun _ _ => False) s.service (s.service.emit
            (.sessionReconnect k.remoteAddr k.connectorType)) := sendsQuiet (quietEmit rfl _)
        apply setSecured h.toSecured own lost (sends.trans (sendsNothing rfl)) h.waits here
        exact movesStart phase fun _ => ⟨old,oldSess,found,rfl,owner ▸ opened,up,.inl entry⟩
      · rw [same]
        have owner : (updateScreen c loginSess k.pid.id k.remoteAddr k.connectorType x).user = user := launched.user
        have created : Secured ⟨s.service.launch (updateScreen c loginSess k.pid.id k.remoteAddr k.connectorType x),
            s.connectors⟩ := createdSecured h inside phase absent owner lock launched.displayNum
        have unique := (h.bound.wellformed.launch
          (x := updateScreen c loginSess k.pid.id k.remoteAddr k.connectorType x) launched.displayNum).own
        have moved := lostUnmoved created.locked.kept (unmovedModify (p := login) (f := moveEncryption) (fun _ => rfl) _)
        have lost := moved.trans (lostLog moved.kept
          (.created login s.service.pool.heap.length user loginSess.password k.pid.id) (by simp) fun _ _ => id)
        apply setSecured created unique lost (sendsNothing rfl) h.waits here
        apply movesStart phase
        intro _
        refine ⟨s.service.pool.heap.length,updateScreen c loginSess k.pid.id k.remoteAddr k.connectorType x,?_,
          launched.displayNum,owner ▸ opened,by simp [updateScreen],.inr ?_⟩
        · exact SharedPool.getInsert.trans (if_pos rfl)
        · intro pid
          cases alive : live s.service.pool.heap.length pid s.service.history with
          | false => exact alive
          | true => exact absurd (h.locked.reporters _ pid alive).1 (lt_irrefl _)
    · exact h.toSecured

theorem stepGuarded (lock : c.sessionPolicy = .authLock) (s : System) (a : SystemAction)
    (apart : LoginsApart c s a) (h : Guarded s) : Guarded (systemStep c s a) := by
  have bound := (stepBound (c := c) s a h.bound).1
  refine ⟨?_,bound⟩
  cases a with
  | connect pid launch xcb remoteAddr connType => exact connectSecured h pid launch xcb remoteAddr connType
  | receive index => exact receiveSecured h index
  | startUserSession index launch socket => exact startSecured lock h index launch socket
  | showDisplay index xcb => exact showSecured h index xcb
  | connected index => exact reportSecured h index
  | terminate index => exact terminateSecured h index (apart lock)
  | service a =>
    simp only [systemStep] at bound ⊢
    split
    · rename_i allowed
      rw [if_pos allowed] at bound
      cases a with
      | exec index env => exact execSecured h index env bound (apart lock)
      | _ => exact permittedSecured h _ allowed (by simp)
    · exact h.toSecured

theorem startGuarded : Guarded systemStart := by
  have nobody (p : XvfbSessionPtr) (x : XvfbSession) (found : systemStart.service.pool.get p = some x) : False := by
    simp [systemStart,start] at found
  have nothing (k : Connector) (inside : k ∈ systemStart.connectors) : False := by
    simp [systemStart] at inside
  have unreported (p : XvfbSessionPtr) (pid : Int) (alive : live p pid systemStart.service.history = true) : False := by
    simp [systemStart,start,live] at alive
  refine ⟨⟨⟨?_,by decide,?_,?_⟩,?_,?_⟩,startsBound⟩
  · exact fun p x found => (nobody p x found).elim
  · exact fun p x found => (nobody p x found).elim
  · exact fun p x _ found => (nobody p x found).elim
  · intro p user inside
    simp [systemStart,start] at inside
  refine ⟨List.nodup_nil,?_,?_,?_,?_,?_,?_,?_,?_,?_,?_⟩
  · exact fun k inside => (nothing k inside).elim
  · exact fun k inside => (nothing k inside).elim
  · exact fun k inside => (nothing k inside).elim
  · exact fun k inside => (nothing k inside).elim
  · exact fun k inside => (nothing k inside).elim
  · exact fun p pid alive => (unreported p pid alive).elim
  · exact fun p x _ found => (nobody p x found).elim
  · exact fun p x _ _ up => (nobody p x (SharedPool.entriesGet up.1)).elim
  · intro user a b _ claim
    rcases claim with ⟨k,inside,_⟩ | ⟨p,x,entry,_⟩
    · exact (nothing k inside).elim
    · exact (nobody p x (SharedPool.entriesGet entry)).elim
  · exact fun p x _ _ found => (nobody p x found).elim

theorem guardedExclusive (h : Guarded s) : Exclusive s := by
  intro p x found policy a b
  apply h.locked.attached p x a b found
  intro account
  have other := h.housed.policies p x found
  rw [if_pos account,policy] at other
  contradiction

end

/-! Under another policy no session is locked. -/

def Unlocked (s : Service) : Prop := ∀ p x, s.pool.get p = some x → x.policy ≠ .authLock

section
variable {s t : Service} {p : XvfbSessionPtr} {x : XvfbSession} {c : Config}

theorem Unlocked.alike (same : SharedPool.Alike persona s.pool t.pool) (h : Unlocked s) : Unlocked t := by
  intro p y found
  obtain ⟨x,before,equal⟩ := same.source found
  rw [personaPolicy equal]
  exact h p x before

theorem Unlocked.launch (policy : x.policy ≠ .authLock) (h : Unlocked s) : Unlocked (s.launch x) := by
  intro p y found
  rcases SharedPool.insertSource found with ⟨_,rfl⟩ | old
  · exact policy
  · exact h p y old

theorem personaBackground (moved : Background s t) : SharedPool.Alike persona s.pool t.pool := by
  have shut := shutDownKeeps persona fun _ _ _ => rfl
  cases moved with
  | unmoved same => exact (subsidesUnmoved same).sessions
  | shutDown p x found up same => exact (SharedPool.alikeModify shut).trans (subsidesUnmoved same).sessions
  | removed display same => exact (subsidesUnmoved same).sessions
  | timedOut p x inside online same =>
    exact (SharedPool.alikeModify (f := detach) fun _ => rfl).trans (subsidesUnmoved same).sessions

theorem personaTerminated (display connectorId : Int) :
    SharedPool.Alike persona s.pool (busConnectorTerminated display connectorId s).pool := by
  unfold busConnectorTerminated
  split
  · exact .refl _
  rename_i p x found
  have noted : (reported p x connectorId s).pool = s.pool := by
    unfold reported
    split
    · rfl
    · split <;> rfl
  dsimp only
  split
  · rw [Service.postPool,noted]
    exact .refl _
  split
  · rw [Service.emitPool,Service.modifyPool,noted]
    exact SharedPool.alikeModify fun _ => rfl
  · rw [noted]
    exact .refl _

theorem stepUnlocked (free : c.sessionPolicy ≠ .authLock) (b : Action)
    (other : ∀ display policy, b ≠ .setSessionPolicy display policy) (h : Unlocked s) : Unlocked (step c s b) := by
  cases quiet : background b with
  | true => exact h.alike (personaBackground (stepBackground b quiet s))
  | false =>
    cases b with
    | startLoginSession launch connectorId remoteAddr connType =>
      simp only [step]
      obtain ⟨display,later,same⟩ | ⟨x,launched,same⟩ :=
        loginSessionSource (c := c) launch connectorId.id remoteAddr connType s
      · rw [same]
        exact h
      · rw [same]
        exact h.launch (x := {x with remoteAddr,conntype := connType,connectorId := connectorId.id})
          (by simp [launched.policy])
    | startUserSession launch socket oldScreen connectorId userName remoteAddr connType =>
      simp only [step]
      obtain ⟨display,later,same⟩ | ⟨login,loginSess,_,⟨old,oldSess,rest,sessions,_,same⟩ | ⟨absent,x,launched,same⟩⟩ :=
        userSessionSource (c := c) launch socket oldScreen connectorId.id userName remoteAddr connType s
      · rw [same]
        exact h
      · rw [same]
        have resumed := h.alike (t := s.modify old (continueScreen loginSess connectorId.id remoteAddr connType))
          (SharedPool.alikeModify fun _ => rfl)
        have moved := resumed.alike (t := (s.modify old
          (continueScreen loginSess connectorId.id remoteAddr connType)).modify login moveEncryption)
            (SharedPool.alikeModify fun _ => rfl)
        exact moved
      · rw [same]
        have created := h.launch (x := updateScreen c loginSess connectorId.id remoteAddr connType x) free
        have moved := created.alike (t := (s.launch
          (updateScreen c loginSess connectorId.id remoteAddr connType x)).modify login moveEncryption)
            (SharedPool.alikeModify fun _ => rfl)
        exact moved
    | connectorConnected display connectorId =>
      simp only [step]
      unfold busConnectorConnected
      split
      · exact h
      · exact h.alike (SharedPool.alikeModify fun _ => rfl)
    | connectorTerminated display connectorId => exact h.alike (personaTerminated display connectorId.id)
    | setSessionPolicy display policy => exact absurd rfl (other display policy)
    | _ => contradiction

theorem systemUnlocked (free : c.sessionPolicy ≠ .authLock) (s : System) (a : SystemAction)
    (h : Unlocked s.service) : Unlocked (systemStep c s a).service := by
  rcases systemService (c := c) (s := s) a with same | ⟨b,other,same⟩
  · rw [same]
    exact h
  · rw [same]
    exact stepUnlocked free b other h

end

/- Alice logs in at a screen, with so many tasks queued before. -/
def loginAt (connector : Nat) (pid : Pid) (display : Int) (queued : Nat) : List SystemAction :=
  [.connect pid hostLaunch true "10.0.0.1" "ltsm",
    .service (.setAuthenticateLoginPass display "alice" "secret"),.service (.exec queued (hostAnswer true)),
    .service (.exec queued (hostAnswer true)),.service (.exec queued (hostAnswer true)),
    .receive connector,.startUserSession connector hostLaunch true,.showDisplay connector true,.connected connector]

def doubleLoginRun : List SystemAction :=
  [.connect (hostPid 501) hostLaunch true "10.0.0.1" "ltsm",.connect (hostPid 502) hostLaunch true "10.0.0.2" "ltsm",
    .service (.setAuthenticateLoginPass 101 "alice" "secret"),.service (.setAuthenticateLoginPass 102 "alice" "secret"),
    .service (.exec 0 (hostAnswer true)),.service (.exec 0 (hostAnswer true)),.service (.exec 0 (hostAnswer true)),
    .service (.exec 0 (hostAnswer true)),.service (.exec 0 (hostAnswer true)),.service (.exec 0 (hostAnswer true)),
    .receive 0,.receive 1,.receive 1,.startUserSession 0 hostLaunch true,.startUserSession 1 hostLaunch true]

def doubleLogin : System := run (systemStep (hostConfig "authlock")) systemStart doubleLoginRun

end Ltsm.AuthLock
