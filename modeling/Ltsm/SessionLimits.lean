import Ltsm.SessionTasks

/-! The time limits of the sessions. The service has a clock, the times that a session was started, attached
and left at, and a timer that looks at all sessions some time after it last did. -/
namespace Ltsm.SessionLimits
open Library XvfbSessions DBusAdaptor SessionMoves SessionTasks

/- Times are milliseconds of the system clock, limits seconds; the last three are no fields of the service,
but when a limit was given its value. -/
structure Times where
  lifeTimeLimitSec : UInt32
  onlineTimeLimitSec : UInt32
  offlineTimeLimitSec : UInt32
  tpStart : Nat
  tpOnline : Nat
  tpOffline : Nat
  lifeSet : Nat
  onlineSet : Nat
  offlineSet : Nat
  deriving DecidableEq, Repr

/- `session:lifetime:timeout`, `session:online:timeout` and `session:offline:timeout`. -/
structure Timeouts where
  lifetime : Int
  online : Int
  offline : Int

/- What the timer tells a user whose time is running out. -/
inductive Notice where
  | clearRenderPrimitives (display : Int)
  | renderText (display : Int) (text : String)
  | bell (display : Int)
  deriving DecidableEq, Repr

/- `ticked` is when the timer has last been, `stops` what it has sent to connectors and when. -/
structure Timed where
  service : Service
  now : Nat
  times : XvfbSessionPtr → Times
  ticked : Nat
  notices : List Notice
  stops : List (Nat × Int)

def sessionSec (now tp : Nat) : Nat := (now - tp) / 1000

/- A time point that has not been set is the epoch. -/
def sessionStartedSec (now : Nat) (times : Times) : Nat := if times.tpStart = 0 then 0 else sessionSec now times.tpStart

def sessionOnlinedSec (now : Nat) (x : XvfbSession) (times : Times) : Nat :=
  if x.mode ≠ .connected then 0 else sessionSec now times.tpOnline

def sessionOfflinedSec (now : Nat) (x : XvfbSession) (times : Times) : Nat :=
  if x.mode ≠ .disconnected then 0 else sessionSec now times.tpOffline

def findTimepointLimitSessions (t : Timed) : List XvfbSessionPtr :=
  ((t.service.pool.entries.filter fun e => 0 < (t.times e.1).lifeTimeLimitSec ∨ 0 < (t.times e.1).onlineTimeLimitSec ∨
    0 < (t.times e.1).offlineTimeLimitSec).map Prod.fst).reverse

/- What is left of each of the two limits, where there is one. -/
def lastSecStarted (now : Nat) (x : XvfbSession) (times : Times) : Nat :=
  if 0 < times.lifeTimeLimitSec ∧ x.mode ≠ .login then times.lifeTimeLimitSec.toNat - sessionStartedSec now times
  else UInt32.size - 1

def lastSecOnlined (now : Nat) (x : XvfbSession) (times : Times) : Nat :=
  if x.mode = .connected ∧ 0 < times.onlineTimeLimitSec then
    times.onlineTimeLimitSec.toNat - sessionOnlinedSec now x times
  else UInt32.size - 1

def informs (now : Nat) (x : XvfbSession) (times : Times) : List Notice :=
  let lastsec := min (lastSecStarted now x times) (lastSecOnlined now x times)
  if lastsec < UInt32.size - 1 then
    (if lastsec < 100 then
      [.clearRenderPrimitives x.displayNum,
        .renderText x.displayNum ((if lastSecStarted now x times < lastSecOnlined now x times then "Session" else "Online")
          ++ " limit - time left: " ++ toString lastsec ++ "sec")]
    else []) ++ if lastsec < 10 then [.bell x.displayNum] else []
  else []

/- The limits are looked at one after the other, and the first one exceeded ends it. -/
def limitAction (ptr : XvfbSessionPtr) (t : Timed) : Timed :=
  match t.service.pool.get ptr with
  | none => t
  | some x =>
    let times := t.times ptr
    if 0 < times.lifeTimeLimitSec ∧ times.lifeTimeLimitSec.toNat < sessionStartedSec t.now times then
      {t with service := t.service.post (.displayShutdown ptr true)}
    else if x.mode = .connected ∧ 0 < times.onlineTimeLimitSec ∧
        times.onlineTimeLimitSec.toNat < sessionOnlinedSec t.now x times then
      {t with
        service := t.service.emit (.shutdownConnector x.displayNum)
        stops := (t.now,x.displayNum) :: t.stops}
    else if x.mode = .disconnected ∧ 0 < times.offlineTimeLimitSec ∧
        times.offlineTimeLimitSec.toNat < sessionOfflinedSec t.now x times then
      {t with service := t.service.post (.displayShutdown ptr true)}
    else {t with notices := t.notices ++ informs t.now x times}

def timerSessionsTimeLimitAction (t : Timed) : Timed :=
  {(findTimepointLimitSessions t).foldl (fun t ptr => limitAction ptr t) t with ticked := t.now}

/-! What sets the times and the limits. -/

section
variable (k : Timeouts) (c : Config)

/- A session that has been started, in its own slot. -/
def started (a : Action) (t : Timed) : XvfbSessionPtr → Times :=
  if t.service.pool.heap.length < (step c t.service a).pool.heap.length then
    Function.update t.times t.service.pool.heap.length
      ⟨.ofInt k.lifetime,0,0,t.now,0,0,t.now,t.now,t.now⟩
  else t.times

def attached (display : Int) (t : Timed) : XvfbSessionPtr → Times :=
  match findDisplaySession t.service.pool display with
  | none => t.times
  | some (ptr,_) => Function.update t.times ptr {t.times ptr with
      tpOnline := t.now
      onlineTimeLimitSec := .ofInt k.online
      onlineSet := t.now}

/- Of a session that was connected; `pool` is the sessions as the report finds them. -/
def left (pool : XvfbPool) (display : Int) (t : Timed) : XvfbSessionPtr → Times :=
  match findDisplaySession pool display with
  | none => t.times
  | some (ptr,x) =>
    if x.mode = .connected then
      Function.update t.times ptr {t.times ptr with
        tpOffline := t.now
        offlineTimeLimitSec := .ofInt k.offline
        offlineSet := t.now}
    else t.times

/- Of a session whose connector has not answered for the fourth time. -/
def checked (q : XvfbSessionPtr) (t : Timed) : XvfbSessionPtr → Times :=
  match t.service.pool.get q with
  | none => t.times
  | some y =>
    if y.checkConnection ∧ 3 < y.connectorFailures + 1 then left k (t.service.pool.modify q missed) y.displayNum t
    else t.times

def timesAfter (a : Action) (t : Timed) : XvfbSessionPtr → Times :=
  match a with
  | .startLoginSession .. | .startUserSession .. => started k c a t
  | .connectorConnected display _ => attached k display t
  | .connectorTerminated display _ => left k t.service.pool display t
  | .exec index _ =>
    match t.service.tasks[index]? with
    | some (.checkConnected ptr) => checked k ptr t
    | _ => t.times
  | _ => t.times

def serve (a : Action) (t : Timed) : Timed :=
  {t with
    service := step c t.service a
    times := timesAfter k c a t}

def setLimit (limit : TimeLimit) (display : Int) (sec : UInt32) (t : Timed) : Timed :=
  match findDisplaySession t.service.pool display with
  | none => t
  | some (ptr,_) => {t with
      times := Function.update t.times ptr (match limit with
        | .life => {t.times ptr with lifeTimeLimitSec := sec, lifeSet := t.now}
        | .online => {t.times ptr with onlineTimeLimitSec := sec, onlineSet := t.now}
        | .offline => {t.times ptr with offlineTimeLimitSec := sec, offlineSet := t.now})
      notices := t.notices ++ [.clearRenderPrimitives display]}

inductive TimedAction where
  | wait (ms : Nat)
  | serve (a : Action)
  | setLimit (limit : TimeLimit) (display : Int) (sec : UInt32)
  | timer

/- The timer of the limits is the one with the clock. -/
def timedStep (t : Timed) : TimedAction → Timed
  | .wait ms => {t with now := t.now + ms}
  | .serve (.limitTimer _ _) => t
  | .serve a => serve k c a t
  | .setLimit limit display sec => setLimit limit display sec t
  | .timer => timerSessionsTimeLimitAction t

end

/- The service starts at some time after the epoch, and the timer with it. -/
def startTimed (first : Nat) : Timed := ⟨start,first,fun _ => ⟨0,0,0,0,0,0,0,0,0⟩,first,[],[]⟩

/- The timer is never longer away than this. -/
def Punctual (period : Nat) (t : Timed) : TimedAction → Prop
  | .wait ms => t.now + ms ≤ t.ticked + period
  | _ => True

/-! How long a session lasts. -/

/- A second after the limit, or when the limit was given. -/
def deadline (tp : Nat) (limit : UInt32) (set : Nat) : Nat := max (tp + (limit.toNat + 1) * 1000) set

def Times.lifeDeadline (u : Times) : Nat := deadline u.tpStart u.lifeTimeLimitSec u.lifeSet
def Times.onlineDeadline (u : Times) : Nat := deadline u.tpOnline u.onlineTimeLimitSec u.onlineSet
def Times.offlineDeadline (u : Times) : Nat := deadline u.tpOffline u.offlineTimeLimitSec u.offlineSet

/- What the timer has seen to at `moment`: a session past a limit is to be shut down, or its connector told
to go. -/
structure SeenTo (moment : Nat) (t : Timed) (p : XvfbSessionPtr) (x : XvfbSession) : Prop where
  life : 0 < (t.times p).lifeTimeLimitSec → Doomed t.service p ∨ moment ≤ (t.times p).lifeDeadline
  online : x.mode = .connected → 0 < (t.times p).onlineTimeLimitSec → Doomed t.service p ∨
    (∃ told, (told,x.displayNum) ∈ t.stops ∧ (t.times p).tpOnline < told) ∨ moment ≤ (t.times p).onlineDeadline
  offline : x.mode = .disconnected → 0 < (t.times p).offlineTimeLimitSec →
    Doomed t.service p ∨ moment ≤ (t.times p).offlineDeadline

section
variable {k : Timeouts} {c : Config} {t u : Timed} {p : XvfbSessionPtr} {x x' : XvfbSession}

theorem deadlineOf {now tp : Nat} {limit : UInt32} (set : Nat) (within : ¬limit.toNat < sessionSec now tp) :
    now ≤ deadline tp limit set := by
  have before : now ≤ tp + (limit.toNat + 1) * 1000 := by
    unfold sessionSec at within
    omega
  exact before.trans (le_max_left _ _)

theorem setBefore (moment tp : Nat) (limit : UInt32) {set : Nat} (after : moment ≤ set) : moment ≤ deadline tp limit set :=
  after.trans (le_max_right _ _)

/- What a look at one session leaves of the others. -/
structure Looked (t u : Timed) : Prop where
  pool : u.service.pool = t.service.pool
  tasks : Posts t.service u.service
  unmoved : Unmoved t.service u.service
  now : u.now = t.now
  times : u.times = t.times
  stops : t.stops ⊆ u.stops
  ticked : u.ticked = t.ticked

theorem Looked.trans {v : Timed} (first : Looked t u) (second : Looked u v) : Looked t v :=
  ⟨second.pool.trans first.pool,first.tasks.trans second.tasks,first.unmoved.trans second.unmoved,
    second.now.trans first.now,second.times.trans first.times,fun _ inside => second.stops (first.stops inside),
    second.ticked.trans first.ticked⟩

theorem lookedRefl (t : Timed) : Looked t t := ⟨rfl,.refl _,.refl _,rfl,rfl,fun _ => id,rfl⟩

theorem limitLooked (p : XvfbSessionPtr) (t : Timed) : Looked t (limitAction p t) := by
  unfold limitAction
  split
  · exact lookedRefl t
  · dsimp only
    split
    · exact ⟨rfl,postsTask _ _,unmovedPost _ _,rfl,rfl,fun _ => id,rfl⟩
    · split
      · exact ⟨rfl,postsSame rfl,unmovedEmit _ _,rfl,rfl,fun _ => List.mem_cons_of_mem _,rfl⟩
      · split
        · exact ⟨rfl,postsTask _ _,unmovedPost _ _,rfl,rfl,fun _ => id,rfl⟩
        · exact ⟨rfl,.refl _,.refl _,rfl,rfl,fun _ => id,rfl⟩

theorem doomedLooked (looked : Looked t u) (doomed : Doomed t.service p) : Doomed u.service p := by
  obtain ⟨emitSignal,inside⟩ | inside | gone := doomed
  · exact .inl ⟨emitSignal,looked.tasks.subset inside⟩
  · exact .inr (.inl (looked.tasks.subset inside))
  · rw [← looked.pool] at gone
    exact .inr (.inr gone)

theorem SeenTo.looked {moment : Nat} (seen : SeenTo moment t p x) (looked : Looked t u) : SeenTo moment u p x := by
  have doomed : Doomed t.service p → Doomed u.service p := doomedLooked looked
  obtain ⟨life,online,offline⟩ := seen
  rw [← looked.times] at life online offline
  refine ⟨fun some => (life some).imp doomed id,fun there some => ?_,fun there some => (offline there some).imp doomed id⟩
  refine (online there some).imp doomed (Or.imp ?_ id)
  exact fun ⟨told,inside,after⟩ => ⟨told,looked.stops inside,after⟩

/- A session that the timer looks at is seen to. -/
theorem limitSees (found : t.service.pool.get p = some x) (begun : (t.times p).tpStart ≠ 0) :
    SeenTo t.now (limitAction p t) p x := by
  have looked := limitLooked p t
  have times : (limitAction p t).times p = t.times p := congrFun looked.times p
  by_cases life : 0 < (t.times p).lifeTimeLimitSec ∧
      (t.times p).lifeTimeLimitSec.toNat < sessionStartedSec t.now (t.times p)
  · have doomed : Doomed (limitAction p t).service p := by
      simp only [limitAction,found,if_pos life]
      exact .inl ⟨true,List.mem_append_right _ List.mem_cons_self⟩
    exact ⟨fun _ => .inl doomed,fun _ _ => .inl doomed,fun _ _ => .inl doomed⟩
  · have alive (some : 0 < (t.times p).lifeTimeLimitSec) : t.now ≤ ((limitAction p t).times p).lifeDeadline := by
      have within := fun past => life ⟨some,past⟩
      rw [sessionStartedSec,if_neg begun] at within
      rw [times]
      exact deadlineOf _ within
    by_cases online : x.mode = .connected ∧ 0 < (t.times p).onlineTimeLimitSec ∧
        (t.times p).onlineTimeLimitSec.toNat < sessionOnlinedSec t.now x (t.times p)
    · have ⟨there,_,past⟩ := online
      have told : (t.now,x.displayNum) ∈ (limitAction p t).stops := by
        simp only [limitAction,found,if_neg life,if_pos online]
        exact List.mem_cons_self
      have after : (t.times p).tpOnline < t.now := by
        rw [sessionOnlinedSec,if_neg (not_not.mpr there),sessionSec] at past
        omega
      refine ⟨fun some => .inr (alive (times ▸ some)),fun _ _ => .inr (.inl ⟨t.now,told,?_⟩),fun left => ?_⟩
      · rw [times]
        exact after
      · rw [there] at left
        cases left
    · refine ⟨fun some => .inr (alive (times ▸ some)),fun there some => .inr (.inr ?_),fun there some => ?_⟩
      · have within := fun past => online ⟨there,times ▸ some,past⟩
        rw [sessionOnlinedSec,if_neg (not_not.mpr there)] at within
        rw [times]
        exact deadlineOf _ within
      · by_cases past : (t.times p).offlineTimeLimitSec.toNat < sessionOfflinedSec t.now x (t.times p)
        · have offline : x.mode = .disconnected ∧ 0 < (t.times p).offlineTimeLimitSec ∧
              (t.times p).offlineTimeLimitSec.toNat < sessionOfflinedSec t.now x (t.times p) := ⟨there,times ▸ some,past⟩
          refine .inl (.inl ⟨true,?_⟩)
          simp only [limitAction,found,if_neg life,if_neg online,if_pos offline]
          exact List.mem_append_right _ List.mem_cons_self
        · rw [sessionOfflinedSec,if_neg (not_not.mpr there)] at past
          rw [times]
          exact .inr (deadlineOf _ past)

/- All of them, one after the other. -/
theorem timerSees (ptrs : List XvfbSessionPtr) : Looked t (ptrs.foldl (fun t ptr => limitAction ptr t) t) ∧
    ∀ p ∈ ptrs, ∀ x, t.service.pool.get p = some x → (t.times p).tpStart ≠ 0 →
      SeenTo t.now (ptrs.foldl (fun t ptr => limitAction ptr t) t) p x := by
  induction ptrs generalizing t with
  | nil => exact ⟨lookedRefl t,fun _ inside => absurd inside List.not_mem_nil⟩
  | cons q rest ih =>
    have first := limitLooked q t
    obtain ⟨later,each⟩ := @ih (limitAction q t)
    refine ⟨first.trans later,fun p inside x found begun => ?_⟩
    obtain rfl | inside := List.mem_cons.mp inside
    · exact (limitSees found begun).looked later
    · have seen := each p inside x (first.pool ▸ found) (by rw [first.times]; exact begun)
      rw [first.now] at seen
      exact seen

theorem memLimited (there : some p ∈ t.service.pool.slots) (found : t.service.pool.get p = some x)
    (limited : 0 < (t.times p).lifeTimeLimitSec ∨ 0 < (t.times p).onlineTimeLimitSec ∨
      0 < (t.times p).offlineTimeLimitSec) : p ∈ findTimepointLimitSessions t := by
  refine List.mem_reverse.mpr (List.mem_map.mpr ⟨(p,x),List.mem_filter.mpr ⟨SharedPool.memEntries.mpr ⟨there,found⟩,?_⟩,rfl⟩)
  exact decide_eq_true limited

theorem timerSeesAll (there : some p ∈ t.service.pool.slots) (found : t.service.pool.get p = some x)
    (begun : (t.times p).tpStart ≠ 0) : SeenTo t.now (timerSessionsTimeLimitAction t) p x := by
  obtain ⟨looked,each⟩ := @timerSees t (findTimepointLimitSessions t)
  have times : (timerSessionsTimeLimitAction t).times = t.times := looked.times
  have seen (limited : 0 < (t.times p).lifeTimeLimitSec ∨ 0 < (t.times p).onlineTimeLimitSec ∨
      0 < (t.times p).offlineTimeLimitSec) : SeenTo t.now (timerSessionsTimeLimitAction t) p x := by
    have seen := each p (memLimited there found limited) x found begun
    exact ⟨seen.life,seen.online,seen.offline⟩
  refine ⟨fun some => ?_,fun mode some => ?_,fun mode some => ?_⟩
  · exact (seen (.inl (times ▸ some))).life some
  · exact (seen (.inr (.inl (times ▸ some)))).online mode some
  · exact (seen (.inr (.inr (times ▸ some)))).offline mode some

/-! What holds in every state. -/

/- All sessions of the pool were seen to when the timer has last been. -/
structure Enforced (t : Timed) : Prop where
  tidy : Tidy t.service
  clock : 0 < t.now
  past : t.ticked ≤ t.now
  begun : ∀ p, t.service.pool.Allocated p → (t.times p).tpStart ≠ 0
  seen : ∀ p x, some p ∈ t.service.pool.slots → t.service.pool.get p = some x → SeenTo t.ticked t p x

/- What a step may do to a session that is there: a limit has just been given its value, or is the same. -/
structure Carries (now : Nat) (x x' : XvfbSession) (before after : Times) : Prop where
  display : x'.displayNum = x.displayNum
  begun : after.tpStart = before.tpStart
  life : after.lifeSet = now ∨ after.lifeDeadline = before.lifeDeadline ∧ after.lifeTimeLimitSec = before.lifeTimeLimitSec
  online : x'.mode = .connected → after.onlineSet = now ∨ x.mode = .connected ∧ after.tpOnline = before.tpOnline ∧
    after.onlineDeadline = before.onlineDeadline ∧ after.onlineTimeLimitSec = before.onlineTimeLimitSec
  offline : x'.mode = .disconnected → after.offlineSet = now ∨ x.mode = .disconnected ∧
    after.offlineDeadline = before.offlineDeadline ∧ after.offlineTimeLimitSec = before.offlineTimeLimitSec

theorem SeenTo.carried {moment now : Nat} (seen : SeenTo moment t p x) (past : moment ≤ now)
    (carries : Carries now x x' (t.times p) (u.times p)) (stops : u.stops = t.stops)
    (doomed : Doomed t.service p → Doomed u.service p) : SeenTo moment u p x' := by
  refine ⟨fun some => ?_,fun there some => ?_,fun there some => ?_⟩
  · obtain set | ⟨deadline,limit⟩ := carries.life
    · exact .inr (setBefore _ _ _ (set ▸ past))
    · rw [deadline]
      exact (seen.life (limit ▸ some)).imp doomed id
  · obtain set | ⟨before,tp,deadline,limit⟩ := carries.online there
    · exact .inr (.inr (setBefore _ _ _ (set ▸ past)))
    · rw [deadline,tp,stops,carries.display]
      exact (seen.online before (limit ▸ some)).imp doomed id
  · obtain set | ⟨before,deadline,limit⟩ := carries.offline there
    · exact .inr (setBefore _ _ _ (set ▸ past))
    · rw [deadline]
      exact (seen.offline before (limit ▸ some)).imp doomed id

/- A session whose mode is the same, or that is shut down, and whose times are left alone. -/
theorem carriesSame {now : Nat} {before : Times} (display : x'.displayNum = x.displayNum)
    (mode : x'.mode = x.mode ∨ x'.mode = .shutdown) : Carries now x x' before before := by
  refine ⟨display,rfl,.inr ⟨rfl,rfl⟩,fun there => .inr ⟨?_,rfl,rfl,rfl⟩,fun there => .inr ⟨?_,rfl,rfl⟩⟩
  · obtain same | shut := mode
    · exact same ▸ there
    · rw [shut] at there
      cases there
  · obtain same | shut := mode
    · exact same ▸ there
    · rw [shut] at there
      cases there

theorem sameMode {s s' : Service} (same : Same s s') (found : s.pool.get p = some x) (after : s'.pool.get p = some x') :
    x'.displayNum = x.displayNum ∧ x'.mode = x.mode := by
  obtain ⟨y,before,equal⟩ := same.sessions.source after
  obtain rfl := Option.some.inj (before.symm.trans found)
  exact ⟨congrArg Prod.fst equal,congrArg Prod.snd equal⟩

theorem modifiedMode {s s' : Service} {q : XvfbSessionPtr} {f : XvfbSession → XvfbSession}
    (same : Same (s.modify q f) s') (found : s.pool.get p = some x) (after : s'.pool.get p = some x') :
    q ≠ p ∧ x'.displayNum = x.displayNum ∧ x'.mode = x.mode ∨
      q = p ∧ x'.displayNum = (f x).displayNum ∧ x'.mode = (f x).mode := by
  obtain ⟨y,there,equal⟩ := same.sessions.source after
  obtain ⟨z,before,⟨self,image⟩ | ⟨other,image⟩⟩ := SharedPool.modifySource there <;>
    obtain rfl := Option.some.inj (before.symm.trans found) <;> subst image
  · exact .inr ⟨self,congrArg Prod.fst equal,congrArg Prod.snd equal⟩
  · exact .inl ⟨other,congrArg Prod.fst equal,congrArg Prod.snd equal⟩

theorem shutDisplay (x : XvfbSession) : (shutDown x).displayNum = x.displayNum :=
  shutDownKeeps XvfbSession.displayNum (fun _ _ _ => rfl) x

theorem calmMode {s s' : Service} (calm : Calm s s') (found : s.pool.get p = some x) (after : s'.pool.get p = some x') :
    x'.displayNum = x.displayNum ∧ (x'.mode = x.mode ∨ x'.mode = .shutdown) := by
  cases calm with
  | same same => exact (sameMode same found after).imp id .inl
  | shut q _ same =>
    obtain ⟨_,display,mode⟩ | ⟨_,display,mode⟩ := modifiedMode same found after
    · exact ⟨display,.inl mode⟩
    · exact ⟨display.trans (shutDisplay x),.inr (mode.trans (shutDownMode x))⟩
  | removed q y _ pool =>
    rw [pool] at after
    obtain rfl := Option.some.inj (found.symm.trans after)
    exact ⟨rfl,.inl rfl⟩

/- What a report leaves of the times of a session. -/
theorem leftTimes (pool : XvfbPool) (display : Int) (t : Timed) (p : XvfbSessionPtr) :
    left k pool display t p = t.times p ∨ left k pool display t p = {t.times p with
      tpOffline := t.now
      offlineTimeLimitSec := .ofInt k.offline
      offlineSet := t.now} := by
  cases report : findDisplaySession pool display with
  | none => exact .inl (by simp only [left,report])
  | some entry =>
    obtain ⟨q,y⟩ := entry
    by_cases there : y.mode = .connected
    · simp only [left,report,if_pos there]
      by_cases self : p = q
      · subst self
        exact .inr (Function.update_self ..)
      · exact .inl (Function.update_of_ne self ..)
    · exact .inl (by simp only [left,report,if_neg there])

theorem leftSelf {pool : XvfbPool} {display : Int} (found : findDisplaySession pool display = some (p,x))
    (there : x.mode = .connected) : (left k pool display t p).offlineSet = t.now := by
  rw [left,found]
  simp only [if_pos there,Function.update_self]

theorem leftCarries {pool : XvfbPool} {display : Int} {s' : Service}
    (found : t.service.pool.get p = some x) (after : s'.pool.get p = some x')
    (moves : Same t.service s' ∨ ∃ q y, findDisplaySession pool display = some (q,y) ∧ y.mode = .connected ∧
      Same (t.service.modify q detach) s') : Carries t.now x x' (t.times p) (left k pool display t p) := by
  have times := @leftTimes k pool display t p
  have apart (display' : x'.displayNum = x.displayNum) (mode : x'.mode = x.mode) :
      Carries t.now x x' (t.times p) (left k pool display t p) := by
    obtain same | new := times
    · rw [same]
      exact carriesSame display' (.inl mode)
    · rw [new]
      exact ⟨display',rfl,.inr ⟨rfl,rfl⟩,fun there => .inr ⟨mode ▸ there,rfl,rfl,rfl⟩,fun _ => .inl rfl⟩
  obtain same | ⟨q,y,report,there,same⟩ := moves
  · obtain ⟨display',mode⟩ := sameMode same found after
    exact apart display' mode
  · obtain ⟨_,display',mode⟩ | ⟨rfl,display',mode⟩ := modifiedMode same found after
    · exact apart display' mode
    · have set := @leftSelf k t q y pool display report there
      obtain same | new := times
      · rw [same] at set ⊢
        exact ⟨display',rfl,.inr ⟨rfl,rfl⟩,fun there => SessionMode.noConfusion (mode.symm.trans there),fun _ => .inl set⟩
      · rw [new]
        exact ⟨display',rfl,.inr ⟨rfl,rfl⟩,fun there => SessionMode.noConfusion (mode.symm.trans there),fun _ => .inl rfl⟩

theorem startedOld {a : Action} (allocated : t.service.pool.Allocated p) : started k c a t p = t.times p := by
  unfold started
  split
  · exact Function.update_of_ne (Nat.ne_of_lt allocated) ..
  · rfl

theorem launchedMode {s' : Service} (found : t.service.pool.get p = some x) (after : s'.pool.get p = some x')
    (moves : Same t.service s' ∨ ∃ y, y.displayNum = t.service.freeDisplay ∧ y.mode ≠ .shutdown ∧
      Same (t.service.launch y) s') : x'.displayNum = x.displayNum ∧ x'.mode = x.mode := by
  obtain same | ⟨y,_,_,same⟩ := moves
  · exact sameMode same found after
  · exact sameMode same (SharedPool.getInsertOld found) after

theorem checkedCarries {q : XvfbSessionPtr} (index : Nat) (found : t.service.pool.get p = some x)
    (after : (checkConnected q {t.service with tasks := t.service.tasks.eraseIdx index}).pool.get p = some x') :
    Carries t.now x x' (t.times p) (checked k q t p) := by
  have moves := checkConnectedSame q {t.service with tasks := t.service.tasks.eraseIdx index}
  have still (same : Same {t.service with tasks := t.service.tasks.eraseIdx index} (checkConnected q
      {t.service with tasks := t.service.tasks.eraseIdx index})) : Carries t.now x x' (t.times p) (t.times p) := by
    obtain ⟨display,mode⟩ := @sameMode p x x' {t.service with tasks := t.service.tasks.eraseIdx index} _ same found after
    exact carriesSame display (.inl mode)
  unfold checked
  cases there : t.service.pool.get q with
  | none =>
    refine still (moves.resolve_right ?_)
    rintro ⟨y,_,_,here,_⟩
    cases there.symm.trans here
  | some y =>
    dsimp only
    split
    · refine leftCarries found after ?_
      obtain same | ⟨z,r,w,here,_,report,online,same⟩ := moves
      · exact .inl ⟨same.slots,same.sessions⟩
      · obtain rfl := Option.some.inj (there.symm.trans here)
        exact .inr ⟨r,w,report,online,same.slots,same.sessions⟩
    · rename_i unchecked
      refine still (moves.resolve_right ?_)
      rintro ⟨z,_,_,here,missing,_⟩
      obtain rfl := Option.some.inj (there.symm.trans here)
      exact unchecked missing

theorem serveCarries (a : Action) (found : t.service.pool.get p = some x)
    (after : (step c t.service a).pool.get p = some x') : Carries t.now x x' (t.times p) (timesAfter k c a t p) := by
  have allocated := SharedPool.getAllocated found
  cases quiet : still a with
  | true =>
    obtain ⟨display,mode⟩ := sameMode (stillSame a quiet t.service) found after
    have times : timesAfter k c a t p = t.times p := by
      cases a with
      | exec | startLoginSession | startUserSession | connectorConnected | connectorTerminated => cases quiet
      | _ => rfl
    rw [times]
    exact carriesSame display (.inl mode)
  | false =>
    cases a with
    | startLoginSession launch connectorId remoteAddr connType =>
      obtain ⟨display,mode⟩ := launchedMode found after (startLoginMove launch connectorId.id remoteAddr connType t.service)
      rw [timesAfter,startedOld allocated]
      exact carriesSame display (.inl mode)
    | startUserSession launch socket oldScreen connectorId userName remoteAddr connType =>
      obtain ⟨display,mode⟩ := launchedMode found after
        (startUserMove launch socket oldScreen connectorId.id userName remoteAddr connType t.service)
      rw [timesAfter,startedOld allocated]
      exact carriesSame display (.inl mode)
    | connectorConnected display connectorId =>
      simp only [step,busConnectorConnected] at after
      cases report : findDisplaySession t.service.pool display with
      | none =>
        rw [report] at after
        obtain ⟨display',mode⟩ := sameMode (.refl t.service) found after
        simp only [timesAfter,attached,report]
        exact carriesSame display' (.inl mode)
      | some entry =>
        obtain ⟨q,y⟩ := entry
        rw [report] at after
        have same : Same (t.service.modify q (connect connectorId.id)) (t.service.modify q (connect connectorId.id)) := .refl _
        simp only [timesAfter,attached,report]
        obtain ⟨other,display',mode⟩ | ⟨rfl,display',mode⟩ := modifiedMode same found after
        · rw [Function.update_of_ne other.symm]
          exact carriesSame display' (.inl mode)
        · rw [Function.update_self]
          exact ⟨display',rfl,.inr ⟨rfl,rfl⟩,fun _ => .inl rfl,fun there => SessionMode.noConfusion (mode.symm.trans there)⟩
    | connectorTerminated display connectorId =>
      exact leftCarries found after (terminatedSame display connectorId.id t.service)
    | exec index env =>
      simp only [step,exec] at after
      simp only [timesAfter]
      cases queued : t.service.tasks[index]? with
      | none =>
        rw [queued] at after
        obtain ⟨display,mode⟩ := sameMode (.refl t.service) found after
        exact carriesSame display (.inl mode)
      | some task =>
        rw [queued] at after
        by_cases checks : ∃ q, task = .checkConnected q
        · obtain ⟨q,rfl⟩ := checks
          exact checkedCarries index found after
        · have calm := @runTaskCalm c env task (not_exists.mp checks)
            {t.service with tasks := t.service.tasks.eraseIdx index}
          obtain ⟨display,mode⟩ := @calmMode p x x' {t.service with tasks := t.service.tasks.eraseIdx index} _ calm found after
          cases task with
          | checkConnected q => exact absurd ⟨q,rfl⟩ checks
          | _ => exact carriesSame display mode
    | _ => contradiction

theorem ownPointer {s' : Service} (moves : Same t.service s' ∨ ∃ y, y.displayNum = t.service.freeDisplay ∧
    y.mode ≠ .shutdown ∧ Same (t.service.launch y) s') (unknown : ¬t.service.pool.Allocated p)
    (known : s'.pool.Allocated p) : p = t.service.pool.heap.length := by
  obtain same | ⟨y,_,_,same⟩ := moves
  · exact absurd ((alikeAllocated same.sessions).mp known) unknown
  · have there := (alikeAllocated same.sessions).mp known
    have bound : p < (t.service.pool.heap ++ [y]).length := there
    rw [List.length_append,List.length_singleton] at bound
    exact Nat.le_antisymm (Nat.lt_succ_iff.mp bound) (not_lt.mp unknown)

theorem startedNew {a : Action} (own : p = t.service.pool.heap.length) (known : (step c t.service a).pool.Allocated p) :
    started k c a t p = ⟨.ofInt k.lifetime,0,0,t.now,0,0,t.now,t.now,t.now⟩ := by
  have grown : t.service.pool.heap.length < (step c t.service a).pool.heap.length := own ▸ known
  rw [started,if_pos grown,own,Function.update_self]

/- A session that is not known before has just been started. -/
theorem serveNew (a : Action) (unknown : ¬t.service.pool.Allocated p) (known : (step c t.service a).pool.Allocated p) :
    timesAfter k c a t p = ⟨.ofInt k.lifetime,0,0,t.now,0,0,t.now,t.now,t.now⟩ := by
  cases quiet : still a with
  | true => exact absurd ((alikeAllocated (stillSame a quiet t.service).sessions).mp known) unknown
  | false =>
    cases a with
    | startLoginSession launch connectorId remoteAddr connType =>
      exact startedNew (ownPointer (startLoginMove launch connectorId.id remoteAddr connType t.service) unknown known) known
    | startUserSession launch socket oldScreen connectorId userName remoteAddr connType =>
      exact startedNew (ownPointer (startUserMove launch socket oldScreen connectorId.id userName remoteAddr connType
        t.service) unknown known) known
    | connectorConnected display connectorId =>
      refine absurd ?_ unknown
      simp only [step,busConnectorConnected] at known
      split at known
      · exact known
      · exact SharedPool.allocatedModify.mp known
    | connectorTerminated display connectorId =>
      refine absurd ?_ unknown
      obtain same | ⟨_,_,_,_,same⟩ := terminatedSame display connectorId.id t.service
      · exact (alikeAllocated same.sessions).mp known
      · exact modifiedAllocated same known
    | exec index env =>
      refine absurd ?_ unknown
      simp only [step,exec] at known
      split at known
      · exact known
      · rename_i task _
        by_cases checks : ∃ q, task = .checkConnected q
        · obtain ⟨q,rfl⟩ := checks
          obtain same | ⟨_,_,_,_,_,_,_,same⟩ := checkConnectedSame q {t.service with tasks := t.service.tasks.eraseIdx index}
          · exact (alikeAllocated same.sessions).mp known
          · have kept := modifiedAllocated same known
            exact kept
        · have calm := @runTaskCalm c env task (not_exists.mp checks)
            {t.service with tasks := t.service.tasks.eraseIdx index}
          have kept := calmAllocated calm known
          exact kept
    | _ => contradiction

theorem stepSlotted (a : Action) (s : Service) : Slotted s (step c s a) := by
  by_cases task : ∃ index env, a = .exec index env
  · obtain ⟨index,env,rfl⟩ := task
    simp only [step,exec]
    split
    · exact slottedSame (.refl _)
    · rename_i task _
      have moved := slottedMove (@runTaskMove c env task {s with tasks := s.tasks.eraseIdx index})
      exact ⟨moved.allocated,moved.slots,moved.held,moved.once⟩
  · exact slottedMove (requestMove a (fun index env same => task ⟨index,env,same⟩) s)

theorem serveEnforced (a : Action) (h : Enforced t) : Enforced (serve k c a t) := by
  refine ⟨stepTidy a h.tidy,h.clock,h.past,fun p known => ?_,fun p x' there after => ?_⟩
  · by_cases allocated : t.service.pool.Allocated p
    · obtain ⟨x,found⟩ := SharedPool.allocatedGet allocated
      obtain ⟨x',after⟩ := SharedPool.allocatedGet known
      exact (serveCarries a found after).begun.trans_ne (h.begun p allocated)
    · have times : (serve k c a t).times p = _ := serveNew a allocated known
      rw [times]
      exact h.clock.ne'
  · by_cases allocated : t.service.pool.Allocated p
    · obtain ⟨x,found⟩ := SharedPool.allocatedGet allocated
      have seen := h.seen p x ((stepSlotted a t.service).slots p allocated there) found
      exact seen.carried h.past (serveCarries a found after) rfl (stepDoomed a h.tidy allocated)
    · have times : (serve k c a t).times p = _ := serveNew a allocated (SharedPool.getAllocated after)
      refine ⟨fun _ => .inr ?_,fun _ some => ?_,fun _ some => ?_⟩ <;> rw [times] at *
      · exact setBefore _ _ _ h.past
      · cases some
      · cases some

theorem limitCarries (limit : TimeLimit) (display : Int) (sec : UInt32) (p : XvfbSessionPtr) (x : XvfbSession) :
    Carries t.now x x (t.times p) ((setLimit limit display sec t).times p) := by
  cases report : findDisplaySession t.service.pool display with
  | none =>
    simp only [setLimit,report]
    exact carriesSame rfl (.inl rfl)
  | some entry =>
    obtain ⟨q,y⟩ := entry
    simp only [setLimit,report]
    by_cases self : p = q
    · subst self
      rw [Function.update_self]
      cases limit with
      | life => exact ⟨rfl,rfl,.inl rfl,fun there => .inr ⟨there,rfl,rfl,rfl⟩,fun there => .inr ⟨there,rfl,rfl⟩⟩
      | online => exact ⟨rfl,rfl,.inr ⟨rfl,rfl⟩,fun _ => .inl rfl,fun there => .inr ⟨there,rfl,rfl⟩⟩
      | offline => exact ⟨rfl,rfl,.inr ⟨rfl,rfl⟩,fun there => .inr ⟨there,rfl,rfl,rfl⟩,fun _ => .inl rfl⟩
    · rw [Function.update_of_ne self]
      exact carriesSame rfl (.inl rfl)

theorem limitSame (limit : TimeLimit) (display : Int) (sec : UInt32) (t : Timed) :
    (setLimit limit display sec t).service = t.service ∧ (setLimit limit display sec t).now = t.now ∧
      (setLimit limit display sec t).ticked = t.ticked ∧ (setLimit limit display sec t).stops = t.stops := by
  unfold setLimit
  split
  · exact ⟨rfl,rfl,rfl,rfl⟩
  · exact ⟨rfl,rfl,rfl,rfl⟩

theorem limitEnforced (limit : TimeLimit) (display : Int) (sec : UInt32) (h : Enforced t) :
    Enforced (setLimit limit display sec t) := by
  obtain ⟨service,now,ticked,stops⟩ := limitSame limit display sec t
  refine ⟨service ▸ h.tidy,now ▸ h.clock,now ▸ ticked ▸ h.past,fun p known => ?_,fun p x there found => ?_⟩
  · obtain ⟨x,_⟩ := SharedPool.allocatedGet known
    exact (limitCarries limit display sec p x).begun.trans_ne (h.begun p (service ▸ known))
  · rw [service] at there found
    rw [ticked]
    exact (h.seen p x there found).carried h.past (limitCarries limit display sec p x) stops fun doomed => service ▸ doomed

theorem tidyUnmoved {s s' : Service} (unmoved : Unmoved s s') (posts : Posts s s') (tidy : Tidy s) : Tidy s' := by
  have same := sameUnmoved unmoved
  have slotted := slottedSame same
  refine ⟨tidy.well.unmoved unmoved,slotted.held tidy.held,slotted.once tidy.held tidy.once,fun p x found shut there => ?_⟩
  refine moveDown (moveSame same) posts found shut fun y before down => ?_
  exact tidy.down p y before down (slotted.slots p (SharedPool.getAllocated before) there)

theorem timerEnforced (h : Enforced t) : Enforced (timerSessionsTimeLimitAction t) := by
  obtain ⟨looked,_⟩ := @timerSees t (findTimepointLimitSessions t)
  have pool : (timerSessionsTimeLimitAction t).service.pool = t.service.pool := looked.pool
  have times : (timerSessionsTimeLimitAction t).times = t.times := looked.times
  have now : (timerSessionsTimeLimitAction t).now = t.now := looked.now
  refine ⟨tidyUnmoved looked.unmoved looked.tasks h.tidy,now ▸ h.clock,now.ge,fun p known => ?_,fun p x there found => ?_⟩
  · rw [times]
    exact h.begun p (pool ▸ known)
  · rw [pool] at there found
    exact timerSeesAll there found (h.begun p (SharedPool.getAllocated found))

theorem timedEnforced (a : TimedAction) (h : Enforced t) : Enforced (timedStep k c t a) := by
  cases a with
  | wait ms =>
    refine ⟨h.tidy,Nat.add_pos_left h.clock ms,h.past.trans (Nat.le_add_right _ _),h.begun,fun p x there found => ?_⟩
    have seen := h.seen p x there found
    exact ⟨seen.life,seen.online,seen.offline⟩
  | serve a =>
    cases a with
    | limitTimer limit display => exact h
    | _ => exact serveEnforced _ h
  | setLimit limit display sec => exact limitEnforced limit display sec h
  | timer => exact timerEnforced h

theorem startEnforced {first : Nat} (positive : 0 < first) : Enforced (startTimed first) := by
  refine ⟨startTidy,positive,le_rfl,fun p known => ?_,fun p x _ found => ?_⟩
  · exact absurd known (Nat.not_lt_zero p)
  · simp [startTimed,start] at found

/- Between two looks of the timer. -/
theorem timedPunctual {period : Nat} (a : TimedAction) (punctual : Punctual period t a)
    (near : t.now ≤ t.ticked + period) : (timedStep k c t a).now ≤ (timedStep k c t a).ticked + period := by
  cases a with
  | wait ms => exact punctual
  | serve a => cases a <;> exact near
  | setLimit limit display sec =>
    obtain ⟨_,now,ticked,_⟩ := limitSame limit display sec t
    simp only [timedStep]
    omega
  | timer =>
    have now : (timerSessionsTimeLimitAction t).now = t.now := (@timerSees t (findTimepointLimitSessions t)).1.now
    have ticked : (timerSessionsTimeLimitAction t).ticked = t.now := rfl
    simp only [timedStep]
    omega

end

/- Whatever is asked of the service and in whatever order its tasks are run, a session of the pool is at no
time longer past a limit than the timer is away: it is to be shut down then, or its connector has been told to
go since it came; and where nothing is left to be run it is not to be shut down. -/
theorem limitsEnforced (k : Timeouts) (c : Config) {first : Nat} (positive : 0 < first) (period : Nat)
    {actions : List TimedAction}
    (punctual : Meets (timedStep k c) (Punctual period) (startTimed first) actions) :
    let t := run (timedStep k c) (startTimed first) actions
    ∀ p x, (p,x) ∈ t.service.pool.entries →
      (0 < (t.times p).lifeTimeLimitSec → Doomed t.service p ∨ t.now ≤ (t.times p).lifeDeadline + period) ∧
      (x.mode = .connected → 0 < (t.times p).onlineTimeLimitSec → Doomed t.service p ∨
        (∃ told, (told,x.displayNum) ∈ t.stops ∧ (t.times p).tpOnline < told) ∨
          t.now ≤ (t.times p).onlineDeadline + period) ∧
      (x.mode = .disconnected → 0 < (t.times p).offlineTimeLimitSec → Doomed t.service p ∨
        t.now ≤ (t.times p).offlineDeadline + period) ∧
      (t.service.tasks = [] → ¬Doomed t.service p) := by
  obtain ⟨enforced,near⟩ := meetsInvariant (C := Punctual period)
    (P := fun t => Enforced t ∧ t.now ≤ t.ticked + period)
    (fun t a punctual h => ⟨timedEnforced a h.1,timedPunctual a punctual h.2⟩)
    ⟨startEnforced positive,Nat.le_add_right _ _⟩ punctual
  intro t p x inside
  obtain ⟨there,found⟩ := SharedPool.memEntries.mp inside
  obtain ⟨life,online,offline⟩ := enforced.seen p x there found
  have later {deadline : Nat} (before : t.ticked ≤ deadline) : t.now ≤ deadline + period :=
    near.trans (Nat.add_le_add_right before period)
  refine ⟨fun some => (life some).imp id later,fun mode some => (online mode some).imp id (Or.imp id later),
    fun mode some => (offline mode some).imp id later,fun empty doomed => ?_⟩
  obtain ⟨emitSignal,posted⟩ | posted | gone := doomed
  · rw [empty] at posted
    cases posted
  · rw [empty] at posted
    cases posted
  · exact gone there

/- A session with a limit of one second, whose connector never leaves. -/
def oneSecond : Timeouts := ⟨1,0,0⟩

def loginRun : List TimedAction :=
  [.serve (.startLoginSession hostLaunch (hostPid 5) "" ""),.wait 3000,.timer]

theorem loginEnforced : let t := run (timedStep oneSecond (hostConfig "")) (startTimed 1) loginRun
    ∀ p x, (p,x) ∈ t.service.pool.entries →
      (0 < (t.times p).lifeTimeLimitSec → Doomed t.service p ∨ t.now ≤ (t.times p).lifeDeadline + 3000) ∧
      (x.mode = .connected → 0 < (t.times p).onlineTimeLimitSec → Doomed t.service p ∨
        (∃ told, (told,x.displayNum) ∈ t.stops ∧ (t.times p).tpOnline < told) ∨
          t.now ≤ (t.times p).onlineDeadline + 3000) ∧
      (x.mode = .disconnected → 0 < (t.times p).offlineTimeLimitSec → Doomed t.service p ∨
        t.now ≤ (t.times p).offlineDeadline + 3000) ∧
      (t.service.tasks = [] → ¬Doomed t.service p) :=
  limitsEnforced oneSecond (hostConfig "") (by decide) 3000 ⟨trivial,Nat.le_refl 3001,trivial,trivial⟩

end Ltsm.SessionLimits
