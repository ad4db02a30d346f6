import Ltsm.ConnectorLogin

/-! Whose password a session is started with. The password that PAM accepted last is
kept in the login session, without its user, and read when a connector asks for the
session of the user it has been told of. -/
namespace Ltsm.CredentialBinding
open Library XvfbSessions DBusAdaptor SessionMoves LoginMoves ConnectorLogin

/- The login session and the user of a start or a resumption. -/
def starts : Event → Option (XvfbSessionPtr × String)
  | .created login _ user _ _ | .resumed login _ user _ => some (login,user)
  | _ => none

def StartsAuthorised : List Event → Prop
  | [] => True
  | event :: earlier => StartsAuthorised earlier ∧
      ∀ login user, starts event = some (login,user) → .succeeded login user ∈ earlier

def lastAccepted (login : XvfbSessionPtr) : List Event → Option (String × String)
  | [] => none
  | .accepted q user password :: earlier =>
    if q = login then some (user,password) else lastAccepted login earlier
  | _ :: earlier => lastAccepted login earlier

/- A password that was accepted for the user on the display, or none if no password was
accepted there at all. -/
def OwnPassword (login : XvfbSessionPtr) (user password : String) (history : List Event) : Prop :=
  if lastAccepted login history = none then password = "" else .accepted login user password ∈ history

def OwnPasswords : List Event → Prop
  | [] => True
  | event :: earlier => OwnPasswords earlier ∧ ∀ login p user password connectorId,
      event = .created login p user password connectorId → OwnPassword login user password earlier

structure CredentialsBound (history : List Event) : Prop where
  authorised : StartsAuthorised history
  own : OwnPasswords history

/- A session is created only while the password accepted last on the login display is
one that was accepted there for its user. -/
def LastGivenForUser (c : Config) (s : System) : SystemAction → Prop
  | .startUserSession index launch _ => ∀ k user login loginSess, s.connectors[index]? = some k →
      k.phase = .loginSuccess user → findDisplaySession s.service.pool k.displayNum = some (login,loginSess) →
        findUserSessions s.service.pool user = [] →
          (runNewDisplaySession c launch user loginSess.password s.service).1.isSome = true →
            ∀ given password, lastAccepted login s.service.history = some (given,password) →
              .accepted login user password ∈ s.service.history
  | _ => True

/- The session whose display an attempt is for. -/
def attemptOn : Task → Option XvfbSessionPtr
  | .pamAuthenticate p _ _ _ | .pamVerdict p _ _ | .pamAccount p _ | .pamWait p _ => some p
  | _ => none

/- What the service has on record about its login screens. -/
structure LoginRecord (s : Service) : Prop where
  tasks : ∀ task ∈ s.tasks, ∀ p, attemptOn task = some p → .loginScreen p ∈ s.history
  sent : ∀ display user uid, .loginSuccess display user uid ∈ s.signals → ∃ p x,
    s.pool.get p = some x ∧ x.displayNum = display ∧ .loginScreen p ∈ s.history ∧ .succeeded p user ∈ s.history
  kept : ∀ p x, .loginScreen p ∈ s.history → s.pool.get p = some x →
    x.password = ((lastAccepted p s.history).map Prod.snd).getD ""
  screens : ∀ p, .loginScreen p ∈ s.history → s.pool.Allocated p
  accepted : ∀ p user password, .accepted p user password ∈ s.history → s.pool.Allocated p

section
variable {s t : Service} {p q : XvfbSessionPtr} {x : XvfbSession} {c : Config} {env : Environment}
  {event : Event} {history : List Event} {user password : String}

theorem acceptedMember {given : String × String} (last : lastAccepted p history = some given) :
    .accepted p given.1 given.2 ∈ history := by
  induction history with
  | nil => simp [lastAccepted] at last
  | cons event earlier ih =>
    cases event with
    | accepted q user password =>
      rw [lastAccepted] at last
      split at last
      · rename_i same
        cases Option.some.inj last
        rw [same]
        exact List.mem_cons_self
      · exact List.mem_cons_of_mem _ (ih last)
    | _ => exact List.mem_cons_of_mem _ (ih last)

theorem lastFilter (history : List Event) : lastAccepted p (history.filter isLogin) = lastAccepted p history := by
  induction history with
  | nil => rfl
  | cons event earlier ih => cases event <;> simp [List.filter_cons,isLogin,lastAccepted,ih]

theorem quietLast (same : Quiet s t) : lastAccepted p t.history = lastAccepted p s.history := by
  rw [← lastFilter,same.history,lastFilter]

theorem quietAllocated (same : Quiet s t) (allocated : s.pool.Allocated p) : t.pool.Allocated p := by
  obtain ⟨x,found⟩ := SharedPool.allocatedGet allocated
  obtain ⟨y,after,_⟩ := same.target found
  exact SharedPool.getAllocated after

theorem LoginRecord.quiet (same : Quiet s t) (h : LoginRecord s) : LoginRecord t := by
  have screen (p : XvfbSessionPtr) : .loginScreen p ∈ t.history ↔ .loginScreen p ∈ s.history := same.event rfl
  refine ⟨?_,?_,?_,?_,?_⟩
  · intro task inside p on
    have attempt : isAttempt task = true := by cases task <;> first | rfl | contradiction
    exact (screen p).mpr (h.tasks task (same.tasks task inside attempt) p on)
  · intro display user uid sent
    obtain ⟨p,x,found,here,shown,succeeded⟩ := h.sent display user uid (same.success.mp sent)
    obtain ⟨y,after,equal⟩ := same.target found
    exact ⟨p,y,after,(congrArg LoginView.displayNum equal).trans here,(screen p).mpr shown,
      (same.event rfl).mpr succeeded⟩
  · intro p x shown found
    obtain ⟨old,before,equal⟩ := same.source found
    rw [quietLast same,← h.kept p old ((screen p).mp shown) before]
    exact congrArg LoginView.password equal
  · intro p shown
    exact quietAllocated same (h.screens p ((screen p).mp shown))
  · intro p user password accepted
    exact quietAllocated same (h.accepted p user password ((same.event rfl).mp accepted))

theorem recordPost {task : Task} (h : LoginRecord s)
    (screen : ∀ p, attemptOn task = some p → .loginScreen p ∈ s.history) : LoginRecord (s.post task) := by
  refine ⟨?_,h.sent,h.kept,h.screens,h.accepted⟩
  intro queued inside p on
  rcases List.mem_append.mp inside with old | new
  · exact h.tasks queued old p on
  · cases List.mem_singleton.mp new
    exact screen p on

/- Changes of a session that leave its display and its password alone. -/
theorem recordModify {f : XvfbSession → XvfbSession} (display : ∀ x, (f x).displayNum = x.displayNum)
    (password : ∀ x, (f x).password = x.password) (h : LoginRecord s) : LoginRecord (s.modify p f) := by
  refine ⟨h.tasks,?_,?_,?_,?_⟩
  · intro shown user uid sent
    obtain ⟨q,x,found,here,rest⟩ := h.sent shown user uid sent
    by_cases same : p = q
    · subst same
      exact ⟨p,f x,SharedPool.getModifySelf found,(display x).trans here,rest⟩
    · refine ⟨q,x,?_,here,rest⟩
      rw [Service.modifyPool,SharedPool.getModify,if_neg same]
      exact found
  · intro q x shown found
    obtain ⟨old,before,⟨_,image⟩ | ⟨_,image⟩⟩ := SharedPool.modifySource found
    · rw [image,password]
      exact h.kept q old shown before
    · rw [image]
      exact h.kept q old shown before
  · exact fun q shown => SharedPool.allocatedModify.mpr (h.screens q shown)
  · exact fun q user given accepted => SharedPool.allocatedModify.mpr (h.accepted q user given accepted)

/- An event that neither shows a login screen nor accepts a password. -/
theorem recordLog (h : LoginRecord s) (event : Event) (screen : ∀ p, event ≠ .loginScreen p)
    (other : ∀ p user password, event ≠ .accepted p user password) : LoginRecord (s.log event) := by
  have shown (p : XvfbSessionPtr) (inside : .loginScreen p ∈ (s.log event).history) :
      .loginScreen p ∈ s.history := by
    rcases List.mem_cons.mp inside with new | old
    · exact absurd new.symm (screen p)
    · exact old
  have last (p : XvfbSessionPtr) : lastAccepted p (event :: s.history) = lastAccepted p s.history := by
    cases event with
    | accepted q user password => exact absurd rfl (other q user password)
    | _ => rfl
  refine ⟨?_,?_,?_,?_,?_⟩
  · exact fun task inside p on => List.mem_cons_of_mem _ (h.tasks task inside p on)
  · intro display user uid sent
    obtain ⟨p,x,found,here,screen,succeeded⟩ := h.sent display user uid sent
    exact ⟨p,x,found,here,List.mem_cons_of_mem _ screen,List.mem_cons_of_mem _ succeeded⟩
  · intro p x inside found
    rw [Service.logHistory,last]
    exact h.kept p x (shown p inside) found
  · exact fun p inside => h.screens p (shown p inside)
  · intro p user password inside
    rcases List.mem_cons.mp inside with new | old
    · exact absurd new.symm (other p user password)
    · exact h.accepted p user password old

theorem recordAccept (h : LoginRecord s) (found : s.pool.get p = some x) (user password : String) :
    LoginRecord ((s.modify p fun x => {x with password}).log (.accepted p user password)) := by
  have shown (q : XvfbSessionPtr) (inside : .loginScreen q ∈ .accepted p user password :: s.history) :
      .loginScreen q ∈ s.history := by
    rcases List.mem_cons.mp inside with new | old
    · contradiction
    · exact old
  refine ⟨?_,?_,?_,?_,?_⟩
  · exact fun task inside q on => List.mem_cons_of_mem _ (h.tasks task inside q on)
  · intro display other uid sent
    obtain ⟨q,y,there,here,screen,succeeded⟩ := h.sent display other uid sent
    have later := fun (e : Event) (old : e ∈ s.history) => List.mem_cons_of_mem (.accepted p user password) old
    by_cases same : p = q
    · subst same
      exact ⟨p,_,SharedPool.getModifySelf there,here,later _ screen,later _ succeeded⟩
    · refine ⟨q,y,?_,here,later _ screen,later _ succeeded⟩
      rw [Service.logPool,Service.modifyPool,SharedPool.getModify,if_neg same]
      exact there
  · intro q y inside there
    obtain ⟨old,before,⟨same,image⟩ | ⟨other,image⟩⟩ := SharedPool.modifySource there
    · subst same
      rw [image,Service.logHistory,lastAccepted,if_pos rfl]
      rfl
    · rw [image,Service.logHistory,lastAccepted,if_neg other]
      exact h.kept q old (shown q inside) before
  · exact fun q inside => SharedPool.allocatedModify.mpr (h.screens q (shown q inside))
  · intro q other given inside
    apply SharedPool.allocatedModify.mpr
    rcases List.mem_cons.mp inside with new | old
    · cases new
      exact SharedPool.getAllocated found
    · exact h.accepted q other given old

/-! Steps that start no session. -/

theorem authorisedFilter (history : List Event) :
    StartsAuthorised (history.filter isLogin) ↔ StartsAuthorised history := by
  induction history with
  | nil => rfl
  | cons event earlier ih =>
    have member (p : XvfbSessionPtr) (user : String) :
        Event.succeeded p user ∈ earlier.filter isLogin ↔ .succeeded p user ∈ earlier := by
      simp [List.mem_filter,isLogin]
    cases event <;> simp [List.filter_cons,isLogin,StartsAuthorised,starts,ih,member]

theorem ownFilter (history : List Event) : OwnPasswords (history.filter isLogin) ↔ OwnPasswords history := by
  induction history with
  | nil => rfl
  | cons event earlier ih =>
    have same (p : XvfbSessionPtr) (user password : String) :
        OwnPassword p user password (earlier.filter isLogin) ↔ OwnPassword p user password earlier := by
      unfold OwnPassword
      rw [lastFilter]
      simp [List.mem_filter,isLogin]
    cases event <;> simp [List.filter_cons,isLogin,OwnPasswords,ih,same]

structure Follows (s t : Service) : Prop where
  record : LoginRecord t
  signals : ∀ display user uid, .loginSuccess display user uid ∈ s.signals → .loginSuccess display user uid ∈ t.signals
  authorised : StartsAuthorised t.history ↔ StartsAuthorised s.history
  own : OwnPasswords t.history ↔ OwnPasswords s.history

theorem Follows.refl (h : LoginRecord s) : Follows s s := ⟨h,fun _ _ _ sent => sent,Iff.rfl,Iff.rfl⟩

theorem Follows.trans {u : Service} (first : Follows s t) (second : Follows t u) : Follows s u :=
  ⟨second.record,fun display user uid sent => second.signals display user uid (first.signals display user uid sent),
    second.authorised.trans first.authorised,second.own.trans first.own⟩

theorem followsQuiet (h : LoginRecord s) (same : Quiet s t) : Follows s t := by
  refine ⟨h.quiet same,fun _ _ _ sent => same.success.mpr sent,?_,?_⟩
  · rw [← authorisedFilter,same.history,authorisedFilter]
  · rw [← ownFilter,same.history,ownFilter]

theorem followsPost {task : Task} (h : LoginRecord s)
    (screen : ∀ p, attemptOn task = some p → .loginScreen p ∈ s.history) : Follows s (s.post task) :=
  ⟨recordPost h screen,fun _ _ _ sent => sent,Iff.rfl,Iff.rfl⟩

theorem followsModify {f : XvfbSession → XvfbSession} (display : ∀ x, (f x).displayNum = x.displayNum)
    (password : ∀ x, (f x).password = x.password) (h : LoginRecord s) : Follows s (s.modify p f) :=
  ⟨recordModify display password h,fun _ _ _ sent => sent,Iff.rfl,Iff.rfl⟩

theorem followsLog (h : LoginRecord s) (event : Event) (screen : ∀ p, event ≠ .loginScreen p)
    (other : ∀ p user password, event ≠ .accepted p user password) (none : starts event = none) :
    Follows s (s.log event) := by
  refine ⟨recordLog h event screen other,fun _ _ _ sent => sent,?_,?_⟩
  · rw [Service.logHistory,StartsAuthorised]
    simp [none]
  · rw [Service.logHistory,OwnPasswords,and_iff_left]
    intro login p user password connectorId same
    rw [same] at none
    contradiction

theorem followsSuccess (env : Environment) (h : LoginRecord s) (found : s.pool.get p = some x)
    (screen : .loginScreen p ∈ s.history) (user : String) : Follows s (loginSuccess env p x user s) := by
  have sent : LoginRecord ((s.emit (.loginSuccess x.displayNum user (getUserUid env.db user))).log
      (.succeeded p user)) := by
    have logged := recordLog h (.succeeded p user) (by simp) (by simp)
    refine ⟨logged.tasks,?_,logged.kept,logged.screens,logged.accepted⟩
    intro display other uid inside
    rcases List.mem_append.mp inside with old | new
    · exact logged.sent display other uid old
    · cases List.mem_singleton.mp new
      exact ⟨p,x,found,rfl,List.mem_cons_of_mem _ screen,List.mem_cons_self⟩
  have starts := followsLog h (.succeeded p user) (by simp) (by simp) rfl
  exact ⟨sent,fun _ _ _ old => List.mem_append_left _ old,starts.authorised,starts.own⟩

theorem authSuccessFollows (h : LoginRecord s) (found : s.pool.get p = some x)
    (screen : .loginScreen p ∈ s.history) (user : String) : Follows s (authSuccess c env p x user s) := by
  -- whether or not the counter is reset, the session keeps its display
  obtain ⟨y,there,view,reset⟩ : ∃ y, (if 0 < c.loginFailuresConf then s.modify p resetFailures else s).pool.get p =
      some y ∧ y.displayNum = x.displayNum ∧
        Follows s (if 0 < c.loginFailuresConf then s.modify p resetFailures else s) := by
    split
    · exact ⟨_,SharedPool.getModifySelf found,rfl,followsModify (fun _ => rfl) (fun _ => rfl) h⟩
    · exact ⟨x,found,rfl,.refl h⟩
  have logged := reset.trans
    (followsLog reset.record (.passed p user) (by simp) (by simp) rfl)
  have shown : .loginScreen p ∈ ((if 0 < c.loginFailuresConf then s.modify p resetFailures else s).log
      (.passed p user)).history := by
    apply List.mem_cons_of_mem
    split
    · exact screen
    · exact screen
  have success : Follows s (loginSuccess env p x user
      ((if 0 < c.loginFailuresConf then s.modify p resetFailures else s).log (.passed p user))) := by
    have follows := logged.trans (followsSuccess env logged.record there shown user)
    unfold loginSuccess at follows ⊢
    rw [view] at follows
    exact follows
  unfold authSuccess
  dsimp only
  split
  · exact success
  split
  · exact logged.trans (followsQuiet logged.record (quietEmit rfl _))
  · rename_i userSess _ _ _
    have emitted := followsQuiet logged.record (quietEmit (g := .shutdownConnector userSess.displayNum) rfl _)
    refine logged.trans (emitted.trans (followsPost emitted.record ?_))
    intro q on
    cases Option.some.inj on
    exact shown
  · exact success

theorem pamAuthenticateFollows (h : LoginRecord s) (found : s.pool.get p = some x)
    (screen : .loginScreen p ∈ s.history) (user password : String) (token : Bool) :
    Follows s (pamAuthenticate c env p x user password token s) := by
  unfold pamAuthenticate
  split
  · exact .refl h
  split
  · exact followsQuiet h (quietEmit rfl _)
  split
  · exact authSuccessFollows h found screen user
  · apply followsPost h
    intro q on
    cases Option.some.inj on
    exact screen

theorem pamVerdictFollows (h : LoginRecord s) (found : s.pool.get p = some x)
    (screen : .loginScreen p ∈ s.history) (user password : String) :
    Follows s (pamVerdict c env p x user password s) := by
  unfold pamVerdict
  split
  · have accepted : Follows s ((s.modify p fun x => {x with password}).log (.accepted p user password)) := by
      refine ⟨recordAccept h found user password,fun _ _ _ sent => sent,?_,?_⟩
      · simp [StartsAuthorised,starts]
      · simp [OwnPasswords]
    refine accepted.trans (followsPost accepted.record ?_)
    intro q on
    cases Option.some.inj on
    exact List.mem_cons_of_mem _ screen
  · have emitted := followsQuiet h (quietEmit (g := .loginFailure x.displayNum env.pamError) rfl _)
    have counted := emitted.trans
      (followsModify (p := p) (f := countFailure) (fun _ => rfl) (fun _ => rfl) emitted.record)
    have failed := counted.trans
      (followsLog counted.record (.failed p user) (by simp) (by simp) rfl)
    dsimp only
    split
    · exact failed.trans (followsQuiet failed.record ((quietEmit rfl _).trans (quietPost rfl _)))
    · exact failed

theorem pamAccountFollows (h : LoginRecord s) (found : s.pool.get p = some x)
    (screen : .loginScreen p ∈ s.history) (user : String) : Follows s (pamAccount c env p x user s) := by
  unfold pamAccount
  split
  · exact authSuccessFollows h found screen user
  · exact followsQuiet h (quietFold (fun s _ => shutdownDisplayQuiet _ s) _ s)

theorem execFollows (h : LoginRecord s) (index : Nat) (env : Environment) : Follows s (exec c index env s) := by
  unfold exec
  cases queued : s.tasks[index]? with
  | none => exact .refl h
  | some task =>
    have inside : task ∈ s.tasks := List.mem_of_getElem? queued
    have taken := followsQuiet h (quietErase index s)
    cases task with
    | pamAuthenticate p user password token =>
      have screen := h.tasks _ inside p rfl
      simp only [runTask]
      split
      · exact taken
      · rename_i x found
        exact taken.trans (pamAuthenticateFollows taken.record found screen user password token)
    | pamVerdict p user password =>
      have screen := h.tasks _ inside p rfl
      simp only [runTask]
      split
      · exact taken
      · rename_i x found
        exact taken.trans (pamVerdictFollows taken.record found screen user password)
    | pamAccount p user =>
      have screen := h.tasks _ inside p rfl
      simp only [runTask]
      split
      · exact taken
      · rename_i x found
        exact taken.trans (pamAccountFollows taken.record found screen user)
    | pamWait p user =>
      have screen := h.tasks _ inside p rfl
      simp only [runTask]
      split
      · exact taken
      · rename_i x found
        exact taken.trans (followsSuccess env taken.record found screen user)
    | _ => exact taken.trans (followsQuiet taken.record (runTaskQuiet _ rfl _))

/-! Steps that start a session. -/

theorem recordLaunch (h : LoginRecord s) : LoginRecord (s.launch x) := by
  have grown (q : XvfbSessionPtr) (allocated : s.pool.Allocated q) : (s.pool.insert x).Allocated q := by
    change q < (s.pool.heap ++ [x]).length
    rw [List.length_append]
    exact Nat.lt_add_right _ allocated
  refine ⟨h.tasks,?_,?_,?_,?_⟩
  · intro display user uid sent
    obtain ⟨p,y,found,rest⟩ := h.sent display user uid sent
    exact ⟨p,y,SharedPool.getInsertOld found,rest⟩
  · intro p y shown found
    rcases SharedPool.insertSource found with ⟨rfl,_⟩ | old
    · exact absurd (h.screens _ shown) (lt_irrefl _)
    · exact h.kept p y shown old
  · exact fun p shown => grown p (h.screens p shown)
  · exact fun p user password accepted => grown p (h.accepted p user password accepted)

theorem lastFresh (h : LoginRecord s) : lastAccepted s.pool.heap.length s.history = none := by
  cases last : lastAccepted s.pool.heap.length s.history with
  | none => rfl
  | some given => exact absurd (h.accepted _ _ _ (acceptedMember last)) (lt_irrefl _)

theorem loginSessionFollows (h : LoginRecord s) (launch : Launch) (connectorId : Int)
    (remoteAddr connType : String) :
    Follows s (busStartLoginSession c launch connectorId remoteAddr connType s).2 := by
  obtain ⟨display,_,same⟩ | ⟨x,launched,same⟩ :=
    loginSessionSource (c := c) launch connectorId remoteAddr connType s
  · rw [same]
    exact ⟨⟨h.tasks,h.sent,h.kept,h.screens,h.accepted⟩,fun _ _ _ sent => sent,Iff.rfl,Iff.rfl⟩
  · rw [same]
    have launching := recordLaunch (x := {x with remoteAddr,conntype := connType,connectorId}) h
    refine ⟨⟨?_,?_,?_,?_,?_⟩,fun _ _ _ sent => sent,?_,?_⟩
    · exact fun task inside p on => List.mem_cons_of_mem _ (launching.tasks task inside p on)
    · intro display user uid sent
      obtain ⟨p,y,found,here,shown,succeeded⟩ := launching.sent display user uid sent
      exact ⟨p,y,found,here,List.mem_cons_of_mem _ shown,List.mem_cons_of_mem _ succeeded⟩
    · intro p y shown found
      change y.password = ((lastAccepted p s.history).map Prod.snd).getD ""
      rcases SharedPool.insertSource found with ⟨rfl,rfl⟩ | old
      · rw [lastFresh h]
        exact launched.password
      · rcases List.mem_cons.mp shown with new | before
        · cases new
          exact absurd (SharedPool.getAllocated old) (lt_irrefl _)
        · exact h.kept p y before old
    · intro p shown
      rcases List.mem_cons.mp shown with new | before
      · cases new
        change s.pool.heap.length < (s.pool.heap ++ [_]).length
        rw [List.length_append]
        exact Nat.lt_succ_self _
      · exact launching.screens p before
    · intro p user password accepted
      rcases List.mem_cons.mp accepted with new | before
      · contradiction
      · exact launching.accepted p user password before
    · simp [StartsAuthorised,starts]
    · simp [OwnPasswords]

/- The password of a login session is the one accepted last, whoever it was given for. -/
theorem ownKept (h : LoginRecord s) (shown : .loginScreen p ∈ s.history) (found : s.pool.get p = some x)
    (user : String) : OwnPassword p user x.password s.history ↔
      ∀ given password, lastAccepted p s.history = some (given,password) → .accepted p user password ∈ s.history := by
  have kept := h.kept p x shown found
  unfold OwnPassword
  cases last : lastAccepted p s.history with
  | none =>
    rw [last] at kept
    simpa using kept
  | some given =>
    rw [last] at kept
    have same : x.password = given.2 := kept
    rw [same]
    simp only [reduceCtorEq,if_false]
    constructor
    · intro own user' password here
      cases here
      exact own
    · exact fun all => all given.1 given.2 rfl

/- A session that is created on a login screen has its user's own password exactly if the
one accepted last there was accepted for that user. -/
theorem ownCreated (h : LoginRecord s) (shown : .loginScreen p ∈ s.history) (found : s.pool.get p = some x)
    (created : XvfbSessionPtr) (user : String) (connectorId : Int) :
    OwnPasswords (.created p created user x.password connectorId :: s.history) ↔ OwnPasswords s.history ∧
      ∀ given password, lastAccepted p s.history = some (given,password) → .accepted p user password ∈ s.history := by
  have agrees := ownKept h shown found user
  rw [OwnPasswords]
  refine and_congr_right fun _ => ⟨fun all => agrees.mp (all _ _ _ _ _ rfl),?_⟩
  intro all login display name password other here
  cases here
  exact agrees.mpr all

/- What a step of the system has to see to on a session it starts. -/
theorem userSessionBinding (h : LoginRecord s) (launch : Launch) (socket : Bool) (oldScreen connectorId : Int)
    (user remoteAddr connType : String) {t : Service}
    (result : (busStartUserSession c launch socket oldScreen connectorId user remoteAddr connType s).2 = t)
    (authorised : ∀ login loginSess, findDisplaySession s.pool oldScreen = some (login,loginSess) →
      .loginScreen login ∈ s.history ∧ .succeeded login user ∈ s.history) :
    LoginRecord t ∧
    (∀ display name uid, .loginSuccess display name uid ∈ s.signals → .loginSuccess display name uid ∈ t.signals) ∧
    (StartsAuthorised t.history ↔ StartsAuthorised s.history) ∧
    (OwnPasswords t.history ↔ OwnPasswords s.history ∧
      ∀ login loginSess, findDisplaySession s.pool oldScreen = some (login,loginSess) →
        findUserSessions s.pool user = [] →
          (runNewDisplaySession c launch user loginSess.password s).1.isSome = true →
            ∀ given password, lastAccepted login s.history = some (given,password) →
              .accepted login user password ∈ s.history) := by
  subst result
  unfold busStartUserSession
  cases found : findDisplaySession s.pool oldScreen with
  | none => exact ⟨h,fun _ _ _ sent => sent,Iff.rfl,by simp⟩
  | some entry =>
    obtain ⟨login,loginSess⟩ := entry
    obtain ⟨shown,succeeded⟩ := authorised login loginSess found
    have there := (displaySource found).2.1
    dsimp only
    cases sessions : findUserSessions s.pool user with
    | cons front rest =>
      obtain ⟨old,oldSess⟩ := front
      dsimp only
      split
      · have moved := (recordModify (p := login) (f := moveEncryption) (fun _ => rfl) (fun _ => rfl)
          (recordModify (p := old) (f := continueScreen loginSess connectorId remoteAddr connType)
            (fun _ => rfl) (fun _ => rfl) h)).quiet
              (quietEmit (g := .sessionReconnect remoteAddr connType) rfl _)
        refine ⟨recordLog moved (.resumed login old user connectorId) (by simp) (by simp),?_,?_,?_⟩
        · exact fun _ _ _ sent => List.mem_append_left _ sent
        · change StartsAuthorised (.resumed login old user connectorId :: s.history) ↔ _
          simp [StartsAuthorised,starts,succeeded]
        · change OwnPasswords (.resumed login old user connectorId :: s.history) ↔ _
          simp [OwnPasswords]
      · exact ⟨h,fun _ _ _ sent => sent,Iff.rfl,by simp⟩
    | nil =>
      dsimp only
      obtain ⟨display,_,same⟩ | ⟨x,launched,same⟩ :=
        newSessionSource (c := c) launch user loginSess.password s
      · rw [same]
        exact ⟨⟨h.tasks,h.sent,h.kept,h.screens,h.accepted⟩,fun _ _ _ sent => sent,Iff.rfl,by simp [same]⟩
      · rw [same]
        dsimp only
        rw [launchModify]
        have launching := recordLaunch (x := updateScreen c loginSess connectorId remoteAddr connType x) h
        have moved := recordModify (p := login) (f := moveEncryption) (fun _ => rfl) (fun _ => rfl) launching
        refine ⟨recordLog moved (.created login s.pool.heap.length user loginSess.password connectorId)
          (by simp) (by simp),fun _ _ _ sent => sent,?_,?_⟩
        · change StartsAuthorised (.created login s.pool.heap.length user loginSess.password connectorId ::
            s.history) ↔ _
          simp [StartsAuthorised,starts,succeeded]
        · change OwnPasswords (.created login s.pool.heap.length user loginSess.password connectorId ::
            s.history) ↔ _
          rw [ownCreated h shown there]
          refine and_congr_right fun _ => ⟨?_,fun all => all login loginSess rfl rfl (by simp [same])⟩
          intro all login' loginSess' here _ _
          cases here
          exact all

end

/-! The whole system. -/

structure Bound (s : System) : Prop where
  wellformed : Wellformed s.service
  record : LoginRecord s.service
  heard : ∀ k ∈ s.connectors, ∀ user, k.phase = .loginSuccess user →
    ∃ uid, .loginSuccess k.displayNum user uid ∈ s.service.signals
  authorised : StartsAuthorised s.service.history

section
variable {s : System} {t : Service} {c : Config} {k : Connector} {index : Nat}

theorem permittedFollows {s : Service} (h : LoginRecord s) (a : Action) (allowed : permitted s a = true) :
    Follows s (step c s a) := by
  have attempted (display : Int) (user password : String) (token : Bool) (on : onLoginScreen s display = true) :
      Follows s (onSession display (fun p => .post (.pamAuthenticate p user password token)) s) := by
    unfold onLoginScreen at on
    obtain same | ⟨p,x,found,same⟩ := sessionSource display _ s
    · rw [same]
      exact .refl h
    · rw [same]
      rw [found] at on
      apply followsPost h
      intro q here
      cases Option.some.inj here
      simpa using on
  cases other : quietAction a with
  | true => exact followsQuiet h (stepQuiet a other s)
  | false =>
    cases a with
    | exec index env => exact execFollows h index env
    | setAuthenticateToken display user => exact attempted display user "******" true allowed
    | setAuthenticateLoginPass display user password => exact attempted display user password false allowed
    | startLoginSession launch connectorId remoteAddr connType =>
      exact loginSessionFollows h launch connectorId.id remoteAddr connType
    | _ => contradiction

/- A step of the service that starts no session for a user, with at most one connector
moved on, and not to a user it has not heard of. -/
theorem boundFollows (h : Bound s) (follows : Follows s.service t) (wellformed : Wellformed t)
    {connectors : List Connector} (heard : ∀ k ∈ connectors, k ∈ s.connectors ∨
      ∀ user, k.phase = .loginSuccess user → ∃ uid, .loginSuccess k.displayNum user uid ∈ t.signals) :
    Bound ⟨t,connectors⟩ ∧ (OwnPasswords t.history ↔ OwnPasswords s.service.history) := by
  refine ⟨⟨wellformed,follows.record,?_,follows.authorised.mpr h.authorised⟩,follows.own⟩
  intro k inside user phase
  rcases heard k inside with old | new
  · obtain ⟨uid,sent⟩ := h.heard k old user phase
    exact ⟨uid,follows.signals _ _ _ sent⟩
  · exact new user phase

theorem boundConnector (h : Bound s) (follows : Follows s.service t) (wellformed : Wellformed t)
    (found : s.connectors[index]? = some k) {f : Connector → Connector}
    (heard : ∀ user, (f k).phase = .loginSuccess user →
      ∃ uid, .loginSuccess (f k).displayNum user uid ∈ t.signals) :
    Bound (System.setConnector index f {s with service := t}) ∧
      (OwnPasswords t.history ↔ OwnPasswords s.service.history) := by
  apply boundFollows h follows wellformed
  intro k' inside
  rcases memSetConnector (s := {s with service := t}) inside found with old | new
  · exact .inl old
  · exact .inr (new ▸ heard)

/- Where the display of a connector that has heard of a success is a login screen. -/
theorem heardScreen (h : Bound s) (inside : k ∈ s.connectors) {user : String}
    (phase : k.phase = .loginSuccess user) {login : XvfbSessionPtr} {loginSess : XvfbSession}
    (found : findDisplaySession s.service.pool k.displayNum = some (login,loginSess)) :
    .loginScreen login ∈ s.service.history ∧ .succeeded login user ∈ s.service.history := by
  obtain ⟨uid,sent⟩ := h.heard k inside user phase
  obtain ⟨p,x,there,display,shown,succeeded⟩ := h.record.sent _ _ _ sent
  obtain ⟨_,here,number⟩ := displaySource found
  obtain ⟨rfl,_⟩ := SharedPool.uniqueSame h.wellformed.own there here (display.trans number.symm)
  exact ⟨shown,succeeded⟩

theorem startBound (h : Bound s) (launch : Launch) (socket : Bool) :
    Bound (startUserSession c index launch socket s) ∧
      (OwnPasswords (startUserSession c index launch socket s).service.history ↔
        OwnPasswords s.service.history ∧ LastGivenForUser c s (.startUserSession index launch socket)) := by
  unfold startUserSession LastGivenForUser
  dsimp only
  cases found : s.connectors[index]? with
  | none => exact ⟨h,by simp⟩
  | some k =>
    have inside : k ∈ s.connectors := List.mem_of_getElem? found
    dsimp only
    split
    · rename_i user phase
      obtain ⟨record,signals,authorised,own⟩ := userSessionBinding (c := c) h.record launch socket k.displayNum
        k.pid.id user k.remoteAddr k.connectorType rfl fun login loginSess => heardScreen h inside phase
      refine ⟨⟨?_,record,?_,authorised.mpr h.authorised⟩,?_⟩
      · exact h.wellformed.userSession launch socket k.displayNum k.pid.id user k.remoteAddr k.connectorType
      · intro k' member user' phase'
        rcases memSetConnector (s := ⟨_,s.connectors⟩) member found with old | new
        · obtain ⟨uid,sent⟩ := h.heard k' old user' phase'
          exact ⟨uid,signals _ _ _ sent⟩
        · rw [new] at phase'
          dsimp only at phase'
          split at phase' <;> contradiction
      · refine own.trans (and_congr_right fun _ => ?_)
        constructor
        · intro all k' user' login loginSess same phase'
          cases Option.some.inj same
          cases Phase.loginSuccess.inj (phase.symm.trans phase')
          exact all login loginSess
        · exact fun all login loginSess => all k user login loginSess rfl phase
    · rename_i other
      refine ⟨h,?_⟩
      rw [iff_self_and]
      intro _ k' user _ _ same phase
      cases Option.some.inj same
      exact absurd phase (other user)

/- A step that starts no session gives no password. -/
def GivesNone (s t : System) : Prop :=
  Bound t ∧ (OwnPasswords t.service.history ↔ OwnPasswords s.service.history)

theorem connectBound (h : Bound s) (pid : Pid) (launch : Launch) (xcb : Bool) (remoteAddr connType : String) :
    GivesNone s (connect c pid launch xcb remoteAddr connType s) := by
  have wellformed := systemWellformed (c := c) s (.connect pid launch xcb remoteAddr connType) h.wellformed
  simp only [systemStep] at wellformed
  unfold connect at wellformed ⊢
  split
  · exact ⟨h,Iff.rfl⟩
  · rename_i new
    rw [if_neg new] at wellformed
    have follows := loginSessionFollows (c := c) h.record launch pid.id remoteAddr connType
    dsimp only at wellformed ⊢
    split
    · rename_i opened
      rw [if_pos opened] at wellformed
      apply boundFollows h follows wellformed
      intro k inside
      rcases List.mem_append.mp inside with old | new
      · exact .inl old
      · cases List.mem_singleton.mp new
        exact .inr fun user phase => by contradiction
    · rename_i opened
      rw [if_neg opened] at wellformed
      exact boundFollows h follows wellformed fun _ inside => .inl inside

theorem receiveBound (h : Bound s) (index : Nat) : GivesNone s (receive index s) := by
  unfold receive
  cases found : s.connectors[index]? with
  | none => exact ⟨h,Iff.rfl⟩
  | some k =>
    dsimp only
    cases next : s.service.signals[k.received]? with
    | none => exact ⟨h,Iff.rfl⟩
    | some signal =>
      dsimp only
      split
      · rename_i listens
        apply boundConnector h (Follows.refl h.record) h.wellformed found
        intro user phase
        have sent : signal ∈ s.service.signals := List.mem_of_getElem? next
        unfold onSignal at phase ⊢
        cases signal with
        | loginSuccess display userName uid =>
          dsimp only at phase ⊢
          split at phase
          · have quiet : k.phase = .loginSuccess user := phase
            rw [quiet] at listens
            contradiction
          · rename_i own
            cases phase
            exact ⟨uid,by simpa [not_not.mp own] using sent⟩
        | _ =>
          have quiet : k.phase = .loginSuccess user := phase
          rw [quiet] at listens
          contradiction
      · exact ⟨h,Iff.rfl⟩

theorem showBound (c : Config) (h : Bound s) (index : Nat) (xcb : Bool) : GivesNone s (showDisplay index xcb s) := by
  unfold showDisplay
  cases found : s.connectors[index]? with
  | none => exact ⟨h,Iff.rfl⟩
  | some k =>
    have stays := Follows.refl h.record
    dsimp only
    split
    · split
      · split
        · exact boundConnector h (followsQuiet h.record (shutdownDisplayQuiet k.displayNum _))
            (stepWellformed (c := c) s.service (.shutdownDisplay k.displayNum) h.wellformed) found
            fun user phase => by contradiction
        · exact boundConnector h stays h.wellformed found fun user phase => by contradiction
      · exact boundConnector h stays h.wellformed found fun user phase => by contradiction
    · exact ⟨h,Iff.rfl⟩

theorem reportBound (c : Config) (h : Bound s) (index : Nat) : GivesNone s (reportConnected index s) := by
  unfold reportConnected
  cases found : s.connectors[index]? with
  | none => exact ⟨h,Iff.rfl⟩
  | some k =>
    dsimp only
    split
    · exact boundConnector h (followsQuiet h.record (connectedQuiet k.displayNum k.pid.id _))
        (stepWellformed (c := c) s.service (.connectorConnected k.displayNum k.pid) h.wellformed) found
        fun user phase => by contradiction
    · exact ⟨h,Iff.rfl⟩

theorem terminateBound (c : Config) (h : Bound s) (index : Nat) : GivesNone s (terminate index s) := by
  unfold terminate
  cases found : s.connectors[index]? with
  | none => exact ⟨h,Iff.rfl⟩
  | some k =>
    dsimp only
    split
    · exact ⟨h,Iff.rfl⟩
    · exact boundConnector h (followsQuiet h.record (terminatedQuiet k.displayNum k.pid.id _))
        (stepWellformed (c := c) s.service (.connectorTerminated k.displayNum k.pid) h.wellformed) found
        fun user phase => by contradiction

theorem stepBound (s : System) (a : SystemAction) (h : Bound s) : Bound (systemStep c s a) ∧
    (OwnPasswords (systemStep c s a).service.history ↔
      OwnPasswords s.service.history ∧ LastGivenForUser c s a) := by
  cases a with
  | startUserSession index launch socket => exact startBound h launch socket
  | service a =>
    have wellformed := systemWellformed (c := c) s (.service a) h.wellformed
    simp only [systemStep,LastGivenForUser,and_true] at wellformed ⊢
    split
    · rename_i allowed
      rw [if_pos allowed] at wellformed
      exact boundFollows h (permittedFollows h.record a allowed) wellformed fun _ inside => .inl inside
    · exact ⟨h,Iff.rfl⟩
  | connect pid launch xcb remoteAddr connType =>
    simp only [systemStep,LastGivenForUser,and_true]
    exact connectBound h pid launch xcb remoteAddr connType
  | receive index =>
    simp only [systemStep,LastGivenForUser,and_true]
    exact receiveBound h index
  | showDisplay index xcb =>
    simp only [systemStep,LastGivenForUser,and_true]
    exact showBound c h index xcb
  | connected index =>
    simp only [systemStep,LastGivenForUser,and_true]
    exact reportBound c h index
  | terminate index =>
    simp only [systemStep,LastGivenForUser,and_true]
    exact terminateBound c h index

end

theorem startsBound : Bound systemStart := by
  refine ⟨startWellformed,⟨?_,?_,?_,?_,?_⟩,?_,trivial⟩
  · intro task inside
    simp [systemStart,start] at inside
  · intro display user uid sent
    simp [systemStart,start] at sent
  · intro p x shown
    simp [systemStart,start] at shown
  · intro p shown
    simp [systemStart,start] at shown
  · intro p user password accepted
    simp [systemStart,start] at accepted
  · intro k inside
    simp [systemStart] at inside

theorem credentialsBoundIff (c : Config) (actions : List SystemAction) :
    CredentialsBound (run (systemStep c) systemStart actions).service.history ↔
      Meets (systemStep c) (LastGivenForUser c) systemStart actions := by
  have authorised : Bound (run (systemStep c) systemStart actions) :=
    runInvariant (fun s a h => (stepBound s a h).1) startsBound actions
  have own := meetsIff (Q := fun s : System => OwnPasswords s.service.history)
    (fun s a h => (stepBound s a h).1) (fun s a h => (stepBound (c := c) s a h).2) startsBound actions
  constructor
  · exact fun bound => (own.mp bound.own).2
  · exact fun meets => ⟨authorised.authorised,own.mpr ⟨trivial,meets⟩⟩

/-! Alice logs in, and before her connector has heard of it bob's password is accepted
on the same display. -/

def secondLoginRun : List SystemAction :=
  [.connect (hostPid 501) hostLaunch true "10.0.0.1" "ltsm",
    .service (.setAuthenticateLoginPass 101 "alice" "alice's"),
    .service (.setAuthenticateLoginPass 101 "bob" "bob's"),
    .service (.exec 0 (hostAnswer true)),.service (.exec 0 (hostAnswer true)),
    .service (.exec 0 (hostAnswer true)),.service (.exec 1 (hostAnswer true)),
    .service (.exec 0 (hostAnswer true)),.receive 0,.startUserSession 0 hostLaunch true]

def secondLogin : System := run (systemStep (hostConfig "authtake")) systemStart secondLoginRun

theorem otherPasswordGiven :
    secondLogin.service.history.head? = some (.created 0 1 "alice" "bob's" 501) ∧
    .accepted 0 "alice" "bob's" ∉ secondLogin.service.history ∧
    ¬CredentialsBound secondLogin.service.history := by
  have newest : secondLogin.service.history.head? = some (.created 0 1 "alice" "bob's" 501) := by decide
  have never : .accepted 0 "alice" "bob's" ∉ secondLogin.service.history := by decide
  have accepted : lastAccepted 0 secondLogin.service.history ≠ none := by decide
  refine ⟨newest,never,?_⟩
  intro bound
  obtain ⟨earlier,same⟩ := List.head?_eq_some_iff.mp newest
  have own := bound.own
  rw [same] at own never accepted
  change lastAccepted 0 earlier ≠ none at accepted
  have given := own.2 0 1 "alice" "bob's" 501 rfl
  unfold OwnPassword at given
  rw [if_neg accepted] at given
  exact never (List.mem_cons_of_mem _ given)

end Ltsm.CredentialBinding
