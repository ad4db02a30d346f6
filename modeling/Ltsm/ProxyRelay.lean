import Ltsm.Library.Run
import Ltsm.Library.Conduit

/-! The thread that relays between the remote client of an RDP session and the local socket of its peer. What
the kernel answers to a call, what the two ends send and when the owner stops the loop is left open. -/
namespace Ltsm.ProxyRelay
open Library

/- The socket that data comes in from. -/
inductive Side where
  | inet
  | bridge
  deriving DecidableEq, Repr

/- The call that the thread is at: `NetworkStream::hasInput`, `hasData`, `recvFrom` with so many bytes to come,
and the sending of a buffer of that size. -/
inductive Point where
  | loop
  | hasInput (side : Side)
  | hasData (side : Side)
  | recvFrom (side : Side) (len : Nat)
  | sendTo (side : Side) (size : Nat)
  | stopped
  deriving DecidableEq, Repr

inductive Answer where
  | real (count : Nat)
  | again
  | error
  deriving DecidableEq, Repr

/- `ended` are the sides that send no more. -/
structure Proxy where
  loopTransmission : Bool
  valid : Bool
  point : Point
  ways : Side → Conduit UInt8
  ended : Side → Bool
  iterations : Nat
  bytesIn : Nat
  bytesOut : Nat

inductive Move where
  | gives (side : Side) (bytes : List UInt8)
  | ends (side : Side)
  | call (answer : Answer)
  | stopEventLoop
  | shutdown
  deriving DecidableEq, Repr

def onWay (p : Proxy) (side : Side) (f : Conduit UInt8 → Conduit UInt8) : Proxy :=
  {p with ways := Function.update p.ways side (f (p.ways side))}

/- An exception, or an iteration that returns `false`. -/
def stops (p : Proxy) : Proxy := {p with loopTransmission := false, point := .stopped}

/- The other half of the iteration, or its end. -/
def afterSide (p : Proxy) : Side → Proxy
  | .inet => if p.valid then {p with point := .hasInput .bridge} else stops p
  | .bridge => {p with point := .loop, iterations := p.iterations + 1}

/- `POLLIN` is raised by bytes and by the end. -/
def readable (p : Proxy) (side : Side) : Bool := p.valid && (!(p.ways side).pending.isEmpty || p.ended side)

def hasInputStep (p : Proxy) (side : Side) (answer : Answer) : Proxy :=
  if p.valid = false then afterSide p side
  else match answer with
    | .again => p
    | .error => stops p
    | .real _ => if readable p side then {p with point := .hasData side} else afterSide p side

def hasDataStep (p : Proxy) (side : Side) (answer : Answer) : Proxy :=
  if p.valid = false then afterSide p side
  else match answer with
    | .real _ =>
      let dataSz := (p.ways side).pending.length
      if 0 < dataSz then {p with point := .recvFrom side dataSz} else afterSide p side
    | _ => stops p

/- Only what comes in from the client is counted here. -/
def received (p : Proxy) (side : Side) : Proxy :=
  let size := (p.ways side).held.length
  {p with point := .sendTo side size, bytesIn := if side = .inet then p.bytesIn + size else p.bytesIn}

/- A call hands over some of the bytes that there are; at the end of the stream, none. -/
def recvFromStep (p : Proxy) (side : Side) (len : Nat) (answer : Answer) : Proxy :=
  if p.valid = false then stops p
  else match answer with
    | .again => p
    | .error => stops p
    | .real count =>
      let real := min (count + 1) (min len (p.ways side).pending.length)
      if len = real then received (onWay p side (·.take real)) side
      else if 0 < real then {onWay p side (·.take real) with point := .recvFrom side (len - real)}
      else if p.ended side then stops p
      else p

def sent (p : Proxy) (side : Side) (size : Nat) : Proxy :=
  afterSide {p with bytesOut := if side = .bridge then p.bytesOut + size else p.bytesOut} side

def sendToStep (p : Proxy) (side : Side) (size : Nat) (answer : Answer) : Proxy :=
  if p.valid = false then stops p
  else match answer with
    | .again => p
    | .error => stops p
    | .real count =>
      let len := (p.ways side).held.length
      let real := min count len
      if len = real then sent (onWay p side (·.pass real)) side size
      else if 0 < real then onWay p side (·.pass real)
      else stops p

def callStep (p : Proxy) (answer : Answer) : Proxy :=
  match p.point with
  | .loop => if p.loopTransmission ∧ p.valid then {p with point := .hasInput .inet} else stops p
  | .hasInput side => hasInputStep p side answer
  | .hasData side => hasDataStep p side answer
  | .recvFrom side len => recvFromStep p side len answer
  | .sendTo side size => sendToStep p side size answer
  | .stopped => p

def step (p : Proxy) : Move → Proxy
  | .gives side bytes => if p.ended side then p else onWay p side (·.offer bytes)
  | .ends side => {p with ended := Function.update p.ended side true}
  | .call answer => callStep p answer
  | .stopEventLoop => {p with loopTransmission := false}
  | .shutdown => {p with loopTransmission := false, valid := false}

def proxyStartEventLoop : Proxy :=
  ⟨true,true,.loop,fun _ => .empty,fun _ => false,0,0,0⟩

/- Nothing is held, and the statistics have every byte. -/
structure Idle (p : Proxy) : Prop where
  held : ∀ side, (p.ways side).held = []
  bytesIn : p.bytesIn = (p.ways .inet).written.length
  bytesOut : p.bytesOut = (p.ways .bridge).written.length

/- The bytes still to be read are there; of those read, the statistics have the client's. -/
structure Receiving (p : Proxy) (side : Side) (len : Nat) : Prop where
  some : 0 < len
  there : len ≤ (p.ways side).pending.length
  other : ∀ other, other ≠ side → (p.ways other).held = []
  bytesIn : p.bytesIn = (p.ways .inet).written.length
  bytesOut : p.bytesOut = (p.ways .bridge).written.length

structure Sending (p : Proxy) (side : Side) (size : Nat) : Prop where
  some : 0 < (p.ways side).held.length
  other : ∀ other, other ≠ side → (p.ways other).held = []
  bytesIn : p.bytesIn = (p.ways .inet).taken
  bytesOut : p.bytesOut + (if side = .bridge then size else 0) = (p.ways .bridge).taken

def AtPoint (p : Proxy) : Point → Prop
  | .loop | .hasInput _ | .hasData _ => Idle p
  | .recvFrom side len => Receiving p side len
  | .sendTo side size => Sending p side size
  | .stopped => True

structure Sound (p : Proxy) : Prop where
  whole : ∀ side, (p.ways side).Whole
  here : AtPoint p p.point

section
variable {p : Proxy} {side : Side} {answer : Answer}

@[simp] theorem onWaySame (p : Proxy) (side : Side) (f : Conduit UInt8 → Conduit UInt8) :
    (onWay p side f).ways side = f (p.ways side) := Function.update_self side _ p.ways

theorem onWayOther (p : Proxy) {side other : Side} (f : Conduit UInt8 → Conduit UInt8) (different : other ≠ side) :
    (onWay p side f).ways other = p.ways other := Function.update_of_ne different _ p.ways

theorem wholeOn {f : Conduit UInt8 → Conduit UInt8} (whole : ∀ side, (p.ways side).Whole)
    (keeps : (f (p.ways side)).Whole) (other : Side) : ((onWay p side f).ways other).Whole := by
  by_cases same : other = side
  · rw [same,onWaySame]
    exact keeps
  · rw [onWayOther p f same]
    exact whole other

theorem stopsSound (whole : ∀ side, (p.ways side).Whole) : Sound (stops p) := ⟨whole,trivial⟩

theorem afterSound (whole : ∀ side, (p.ways side).Whole) (idle : Idle p) : Sound (afterSide p side) := by
  cases side with
  | bridge => exact ⟨whole,⟨idle.held,idle.bytesIn,idle.bytesOut⟩⟩
  | inet =>
    dsimp only [afterSide]
    split
    · exact ⟨whole,⟨idle.held,idle.bytesIn,idle.bytesOut⟩⟩
    · exact stopsSound whole

theorem hasInputSound (whole : ∀ side, (p.ways side).Whole) (sound : Sound p) (idle : Idle p) :
    Sound (hasInputStep p side answer) := by
  unfold hasInputStep
  split
  · exact afterSound whole idle
  · cases answer with
    | again => exact sound
    | error => exact stopsSound whole
    | real count =>
      dsimp only
      split
      · exact ⟨whole,⟨idle.held,idle.bytesIn,idle.bytesOut⟩⟩
      · exact afterSound whole idle

theorem hasDataSound (whole : ∀ side, (p.ways side).Whole) (idle : Idle p) :
    Sound (hasDataStep p side answer) := by
  unfold hasDataStep
  split
  · exact afterSound whole idle
  · cases answer with
    | again => exact stopsSound whole
    | error => exact stopsSound whole
    | real count =>
      dsimp only
      split
      · rename_i some
        exact ⟨whole,⟨some,Nat.le_refl _,fun other _ => idle.held other,idle.bytesIn,idle.bytesOut⟩⟩
      · exact afterSound whole idle

theorem onWayWritten {f : Conduit UInt8 → Conduit UInt8} (keeps : (f (p.ways side)).written = (p.ways side).written)
    (other : Side) : ((onWay p side f).ways other).written = (p.ways other).written := by
  by_cases same : other = side
  · rw [same,onWaySame,keeps]
  · rw [onWayOther p f same]

theorem onWayTaken {f : Conduit UInt8 → Conduit UInt8} (keeps : (f (p.ways side)).taken = (p.ways side).taken)
    (other : Side) : ((onWay p side f).ways other).taken = (p.ways other).taken := by
  by_cases same : other = side
  · rw [same,onWaySame,keeps]
  · rw [onWayOther p f same]

theorem takenIdle {c : Conduit UInt8} (idle : c.held = []) : c.taken = c.written.length := by
  rw [Conduit.taken,idle]
  rfl

theorem onWayHeld {f : Conduit UInt8 → Conduit UInt8} (other : ∀ other, other ≠ side → (p.ways other).held = []) :
    ∀ other, other ≠ side → ((onWay p side f).ways other).held = [] := by
  intro next different
  rw [onWayOther p f different]
  exact other next different

theorem receivingMore {len real : Nat} (receiving : Receiving p side len) (less : real < len) (point : Point) :
    Receiving {onWay p side (·.take real) with point := point} side (len - real) where
  some := Nat.sub_pos_of_lt less
  there := by
    have there := receiving.there
    show len - real ≤ ((onWay p side (·.take real)).ways side).pending.length
    rw [onWaySame,Conduit.take,List.length_drop]
    omega
  other := onWayHeld (f := (·.take real)) receiving.other
  bytesIn := receiving.bytesIn.trans (congrArg List.length (onWayWritten (f := (·.take real)) rfl .inet).symm)
  bytesOut := receiving.bytesOut.trans (congrArg List.length (onWayWritten (f := (·.take real)) rfl .bridge).symm)

/- The buffer is full, and a buffer is not empty. -/
theorem sendingReceived (some : 0 < (p.ways side).held.length)
    (other : ∀ other, other ≠ side → (p.ways other).held = [])
    (bytesIn : p.bytesIn = (p.ways .inet).written.length) (bytesOut : p.bytesOut = (p.ways .bridge).written.length) :
    Sending (received p side) side (p.ways side).held.length where
  some := some
  other := other
  bytesIn := by
    cases side with
    | inet =>
      show p.bytesIn + _ = _
      rw [bytesIn]
      rfl
    | bridge =>
      show p.bytesIn = (p.ways .inet).taken
      rw [takenIdle (other .inet (by decide)),bytesIn]
  bytesOut := by
    cases side with
    | inet =>
      show p.bytesOut + 0 = (p.ways .bridge).taken
      rw [takenIdle (other .bridge (by decide)),Nat.add_zero,bytesOut]
    | bridge =>
      show p.bytesOut + _ = (p.ways .bridge).taken
      rw [bytesOut]
      rfl

/- What is to be read is there, as nobody else reads it. -/
theorem recvFromSound {len : Nat} (whole : ∀ side, (p.ways side).Whole) (sound : Sound p)
    (receiving : Receiving p side len) : Sound (recvFromStep p side len answer) := by
  have there := receiving.there
  have some := receiving.some
  unfold recvFromStep
  split
  · exact stopsSound whole
  · cases answer with
    | again => exact sound
    | error => exact stopsSound whole
    | real count =>
      dsimp only
      generalize same : min (count + 1) (min len (p.ways side).pending.length) = real
      have taken : ∀ other, ((onWay p side (·.take real)).ways other).Whole :=
        wholeOn whole (Conduit.wholeTake (whole side) real)
      split
      · rename_i full
        refine ⟨taken,sendingReceived ?_ (onWayHeld receiving.other) ?_ ?_⟩
        · rw [onWaySame,Conduit.take,List.length_append,List.length_take]
          omega
        · exact receiving.bytesIn.trans (congrArg List.length (onWayWritten (f := (·.take real)) rfl .inet).symm)
        · exact receiving.bytesOut.trans (congrArg List.length (onWayWritten (f := (·.take real)) rfl .bridge).symm)
      · split
        · exact ⟨taken,receivingMore receiving (by omega) _⟩
        · omega

/- The whole buffer has gone on. -/
theorem idleSent {size : Nat} (sending : Sending p side size) {real : Nat} (all : (p.ways side).held.length = real) :
    Idle {onWay p side (·.pass real) with
      bytesOut := if side = .bridge then p.bytesOut + size else p.bytesOut} := by
  have held : ∀ other, ((onWay p side (·.pass real)).ways other).held = [] := by
    intro other
    by_cases same : other = side
    · rw [same,onWaySame,Conduit.pass,← all,List.drop_length]
    · exact onWayHeld sending.other other same
  have counts : ∀ other, ((onWay p side (·.pass real)).ways other).written.length = (p.ways other).taken := fun other =>
    (takenIdle (held other)).symm.trans (onWayTaken (f := (·.pass real)) (Conduit.takenPass _ real) other)
  refine ⟨held,sending.bytesIn.trans (counts .inet).symm,?_⟩
  show (if side = .bridge then p.bytesOut + size else p.bytesOut) = _
  have bytesOut := sending.bytesOut
  rw [counts .bridge,← bytesOut]
  split
  · rfl
  · rfl

theorem sendToSound {size : Nat} (whole : ∀ side, (p.ways side).Whole) (sound : Sound p)
    (at' : p.point = .sendTo side size) (sending : Sending p side size) : Sound (sendToStep p side size answer) := by
  have some := sending.some
  unfold sendToStep
  split
  · exact stopsSound whole
  · cases answer with
    | again => exact sound
    | error => exact stopsSound whole
    | real count =>
      dsimp only
      generalize same : min count (p.ways side).held.length = real
      have passed : ∀ other, ((onWay p side (·.pass real)).ways other).Whole :=
        wholeOn whole (Conduit.wholePass (whole side) real)
      have keeps : ∀ other, ((onWay p side (·.pass real)).ways other).taken = (p.ways other).taken :=
        onWayTaken (f := (·.pass real)) (Conduit.takenPass _ real)
      split
      · rename_i all
        exact afterSound passed (idleSent sending all)
      · split
        · exact ⟨passed,by
            show AtPoint _ p.point
            rw [at']
            exact ⟨by rw [onWaySame,Conduit.pass,List.length_drop]; omega,onWayHeld sending.other,
              sending.bytesIn.trans (keeps .inet).symm,sending.bytesOut.trans (keeps .bridge).symm⟩⟩
        · exact stopsSound whole

theorem callSound (sound : Sound p) (answer : Answer) : Sound (callStep p answer) := by
  have whole := sound.whole
  have here := sound.here
  unfold callStep
  cases at' : p.point with
  | loop =>
    rw [at'] at here
    dsimp only
    split
    · exact ⟨whole,⟨here.held,here.bytesIn,here.bytesOut⟩⟩
    · exact stopsSound whole
  | hasInput side =>
    rw [at'] at here
    exact hasInputSound whole sound here
  | hasData side =>
    rw [at'] at here
    exact hasDataSound whole here
  | recvFrom side len =>
    rw [at'] at here
    exact recvFromSound whole sound here
  | sendTo side size =>
    rw [at'] at here
    exact sendToSound whole sound at' here
  | stopped => exact sound

end

theorem atPointSame {p q : Proxy} (ways : q.ways = p.ways) (bytesIn : q.bytesIn = p.bytesIn)
    (bytesOut : q.bytesOut = p.bytesOut) (point : Point) (here : AtPoint p point) : AtPoint q point := by
  obtain ⟨loop,valid,_,_,ended,iterations,_,_⟩ := q
  subst ways bytesIn bytesOut
  cases point with
  | loop | hasInput side | hasData side => exact ⟨here.held,here.bytesIn,here.bytesOut⟩
  | recvFrom side len => exact ⟨here.some,here.there,here.other,here.bytesIn,here.bytesOut⟩
  | sendTo side size => exact ⟨here.some,here.other,here.bytesIn,here.bytesOut⟩
  | stopped => trivial

/- What a peer sends only makes what is pending longer. -/
theorem offerSound {p : Proxy} (sound : Sound p) (side : Side) (bytes : List UInt8) :
    Sound (onWay p side (·.offer bytes)) := by
  have keeps : ∀ other, ((onWay p side (·.offer bytes)).ways other).held = (p.ways other).held ∧
      ((onWay p side (·.offer bytes)).ways other).written = (p.ways other).written ∧
      (p.ways other).pending.length ≤ ((onWay p side (·.offer bytes)).ways other).pending.length := by
    intro other
    by_cases same : other = side
    · rw [same,onWaySame]
      exact ⟨rfl,rfl,by rw [Conduit.offer,List.length_append]; omega⟩
    · rw [onWayOther p _ same]
      exact ⟨rfl,rfl,Nat.le_refl _⟩
  have taken : ∀ other, ((onWay p side (·.offer bytes)).ways other).taken = (p.ways other).taken := fun other => by
    rw [Conduit.taken,(keeps other).1,(keeps other).2.1,Conduit.taken]
  have here := sound.here
  refine ⟨wholeOn sound.whole (Conduit.wholeOffer (sound.whole side) bytes),?_⟩
  show AtPoint (onWay p side (·.offer bytes)) p.point
  cases at' : p.point with
  | loop | hasInput _ | hasData _ =>
    rw [at'] at here
    exact ⟨fun other => (keeps other).1.trans (here.held other),
      here.bytesIn.trans (congrArg List.length (keeps .inet).2.1.symm),
      here.bytesOut.trans (congrArg List.length (keeps .bridge).2.1.symm)⟩
  | recvFrom at'' len =>
    rw [at'] at here
    exact ⟨here.some,Nat.le_trans here.there (keeps at'').2.2,fun other h => (keeps other).1.trans (here.other other h),
      here.bytesIn.trans (congrArg List.length (keeps .inet).2.1.symm),
      here.bytesOut.trans (congrArg List.length (keeps .bridge).2.1.symm)⟩
  | sendTo at'' size =>
    rw [at'] at here
    exact ⟨by rw [(keeps at'').1]; exact here.some,fun other h => (keeps other).1.trans (here.other other h),
      here.bytesIn.trans (taken .inet).symm,here.bytesOut.trans (taken .bridge).symm⟩
  | stopped => trivial

theorem stepSound (p : Proxy) (move : Move) (sound : Sound p) : Sound (step p move) := by
  cases move with
  | gives side bytes =>
    dsimp only [step]
    split
    · exact sound
    · exact offerSound sound side bytes
  | ends side => exact ⟨sound.whole,@atPointSame p (step p (.ends side)) rfl rfl rfl p.point sound.here⟩
  | call answer => exact callSound sound answer
  | stopEventLoop => exact ⟨sound.whole,@atPointSame p (step p .stopEventLoop) rfl rfl rfl p.point sound.here⟩
  | shutdown => exact ⟨sound.whole,@atPointSame p (step p .shutdown) rfl rfl rfl p.point sound.here⟩

theorem startSound : Sound proxyStartEventLoop :=
  ⟨fun _ => Conduit.wholeEmpty,⟨fun _ => rfl,rfl,rfl⟩⟩

/- At any time each peer has been written a beginning of what the other one sent; between two iterations
nothing is on the way but what has not been read, and the statistics are those of what was relayed. -/
theorem relayFaithful (moves : List Move) (side : Side) :
    let p := run step proxyStartEventLoop moves
    (p.ways side).written <+: (p.ways side).given ∧
    (p.point = .loop → (p.ways side).given = (p.ways side).written ++ (p.ways side).pending ∧
      p.bytesIn = (p.ways .inet).written.length ∧ p.bytesOut = (p.ways .bridge).written.length) := by
  intro p
  have sound : Sound p := runInvariant stepSound startSound moves
  refine ⟨(sound.whole side).writtenGiven,?_⟩
  intro at'
  have here := sound.here
  rw [at'] at here
  exact ⟨(sound.whole side).through (here.held side),here.bytesIn,here.bytesOut⟩

def threeRelayed : List Move :=
  [.gives .inet [1,2,3],.call (.real 1),.call (.real 1),.call (.real 1),.call (.real 0),.call .again,.call (.real 5),
    .gives .inet [4],.call (.real 2),.call (.real 2),.call (.real 1)]

theorem threeFaithful :
    let p := run step proxyStartEventLoop threeRelayed
    p.point = .loop ∧ (p.ways .inet).written = [1,2,3] ∧ (p.ways .inet).given = [1,2,3] ++ [4] ∧ p.bytesIn = 3 := by
  obtain ⟨_,between⟩ := relayFaithful threeRelayed .inet
  have at' : (run step proxyStartEventLoop threeRelayed).point = .loop := by decide
  obtain ⟨given,bytesIn,_⟩ := between at'
  exact ⟨at',by decide,given,bytesIn⟩

/- The kernel answers every call without an error, a counting one at its first try, takes some of what is sent,
and the owner lets the loop go on. -/
def Smooth (p : Proxy) : Move → Prop
  | .gives _ _ | .ends _ => True
  | .call .error => False
  | .call .again => ∀ side, p.point ≠ .hasData side
  | .call (.real count) => 0 < count ∨ ∀ side size, p.point ≠ .sendTo side size
  | .stopEventLoop | .shutdown => False

/- The loop goes on. -/
structure Runs (p : Proxy) : Prop where
  loop : p.loopTransmission = true
  valid : p.valid = true
  going : p.point ≠ .stopped

theorem afterRuns {p : Proxy} {side : Side} (loop : p.loopTransmission = true) (valid : p.valid = true) :
    Runs (afterSide p side) := by
  cases side with
  | inet =>
    dsimp only [afterSide]
    rw [if_pos valid]
    exact ⟨loop,valid,nofun⟩
  | bridge => exact ⟨loop,valid,nofun⟩

theorem callRuns {p : Proxy} {answer : Answer} (sound : Sound p) (runs : Runs p) (smooth : Smooth p (.call answer)) :
    Runs (callStep p answer) := by
  obtain ⟨loop,valid,going⟩ := runs
  have here := sound.here
  have open' : ¬p.valid = false := by rw [valid]; decide
  unfold callStep
  cases at' : p.point with
  | loop =>
    dsimp only
    rw [if_pos ⟨loop,valid⟩]
    exact ⟨loop,valid,nofun⟩
  | hasInput side =>
    dsimp only [hasInputStep]
    rw [if_neg open']
    cases answer with
    | again => exact ⟨loop,valid,going⟩
    | error => exact smooth.elim
    | real count =>
      dsimp only
      split
      · exact ⟨loop,valid,nofun⟩
      · exact afterRuns loop valid
  | hasData side =>
    dsimp only [hasDataStep]
    rw [if_neg open']
    cases answer with
    | again => exact absurd at' (smooth side)
    | error => exact smooth.elim
    | real count =>
      dsimp only
      split
      · exact ⟨loop,valid,nofun⟩
      · exact afterRuns loop valid
  | recvFrom side len =>
    -- the branch for the end of the stream is not reached: the bytes to be read are there
    rw [at'] at here
    have there := here.there
    have some := here.some
    dsimp only [recvFromStep]
    rw [if_neg open']
    cases answer with
    | again => exact ⟨loop,valid,going⟩
    | error => exact smooth.elim
    | real count =>
      dsimp only
      split
      · exact ⟨loop,valid,nofun⟩
      · rw [if_pos (by omega)]
        exact ⟨loop,valid,nofun⟩
  | sendTo side size =>
    rw [at'] at here
    have some := here.some
    dsimp only [sendToStep]
    rw [if_neg open']
    cases answer with
    | again => exact ⟨loop,valid,going⟩
    | error => exact smooth.elim
    | real count =>
      dsimp only
      obtain positive | elsewhere := smooth
      · split
        · exact afterRuns loop valid
        · rw [if_pos (by omega)]
          exact ⟨loop,valid,going⟩
      · exact absurd at' (elsewhere side size)
  | stopped => exact absurd at' going

theorem stepRuns (p : Proxy) (move : Move) (smooth : Smooth p move) (inv : Sound p ∧ Runs p) :
    Sound (step p move) ∧ Runs (step p move) := by
  obtain ⟨sound,runs⟩ := inv
  refine ⟨stepSound p move sound,?_⟩
  cases move with
  | gives side bytes =>
    dsimp only [step]
    split
    · exact runs
    · exact ⟨runs.loop,runs.valid,runs.going⟩
  | ends side => exact ⟨runs.loop,runs.valid,runs.going⟩
  | call answer => exact callRuns sound runs smooth
  | stopEventLoop => exact smooth.elim
  | shutdown => exact smooth.elim

/- The relay itself never ends: the end of a peer is seen as input that has no bytes, and the end of the
stream is not read, as only the bytes are read that have been counted. It takes a failing call or its owner. -/
theorem endUnnoticed (moves : List Move) (smooth : Meets step Smooth proxyStartEventLoop moves) :
    Runs (run step proxyStartEventLoop moves) :=
  (meetsInvariant stepRuns ⟨startSound,⟨rfl,rfl,nofun⟩⟩ smooth).2

theorem bothUnnoticed : Runs (run step proxyStartEventLoop
    [.gives .inet [7],.ends .inet,.ends .bridge,.call (.real 1),.call (.real 1),.call (.real 1),.call (.real 1),
      .call (.real 1),.call (.real 1),.call (.real 1),.call (.real 1)]) :=
  endUnnoticed _ ⟨trivial,trivial,trivial,.inl Nat.one_pos,.inl Nat.one_pos,.inl Nat.one_pos,.inl Nat.one_pos,
    .inl Nat.one_pos,.inl Nat.one_pos,.inl Nat.one_pos,.inl Nat.one_pos,trivial⟩

/- What had been given at an earlier time, when so many iterations were over, is on its way: in the iteration
after it is read and written, one side after the other. -/
section
variable {base : Side → List UInt8} {before : Nat} {p : Proxy} {side : Side}

def Reached (base : Side → List UInt8) (p : Proxy) (side : Side) : Prop :=
  (base side).length ≤ (p.ways side).written.length

def Underway (base : Side → List UInt8) (p : Proxy) : Point → Prop
  | .loop | .stopped | .hasInput .inet | .hasData .inet => True
  | .hasInput .bridge | .hasData .bridge => Reached base p .inet
  | .recvFrom .inet len => (base .inet).length ≤ (p.ways .inet).taken + len
  | .recvFrom .bridge len => Reached base p .inet ∧ (base .bridge).length ≤ (p.ways .bridge).taken + len
  | .sendTo .inet _ => (base .inet).length ≤ (p.ways .inet).taken
  | .sendTo .bridge _ => Reached base p .inet ∧ (base .bridge).length ≤ (p.ways .bridge).taken

structure Follows (base : Side → List UInt8) (before : Nat) (p : Proxy) : Prop where
  given : ∀ side, base side <+: (p.ways side).given
  under : p.valid = true → before < p.iterations → Underway base p p.point
  done : p.valid = true → before + 1 < p.iterations → ∀ side, Reached base p side

theorem reachedOn {f : Conduit UInt8 → Conduit UInt8} {other : Side}
    (grows : (p.ways side).written.length ≤ (f (p.ways side)).written.length) (reached : Reached base p other) :
    Reached base (onWay p side f) other := by
  unfold Reached at *
  by_cases same : other = side
  · rw [same,onWaySame]
    rw [same] at reached
    exact Nat.le_trans reached grows
  · rw [onWayOther p f same]
    exact reached

theorem givenOn {f : Conduit UInt8 → Conduit UInt8} {other : Side}
    (grows : (p.ways side).given <+: (f (p.ways side)).given) (given : base other <+: (p.ways other).given) :
    base other <+: ((onWay p side f).ways other).given := by
  by_cases same : other = side
  · rw [same,onWaySame]
    rw [same] at given
    exact given.trans grows
  · rw [onWayOther p f same]
    exact given

theorem stopsFollows (follows : Follows base before p) : Follows base before (stops p) :=
  ⟨follows.given,fun _ _ => trivial,follows.done⟩

theorem afterFollows (follows : Follows base before p) (valid : p.valid = true)
    (inet : before < p.iterations → Reached base p .inet)
    (bridge : before < p.iterations → side = .bridge → Reached base p .bridge) :
    Follows base before (afterSide p side) := by
  cases side with
  | inet =>
    dsimp only [afterSide]
    rw [if_pos valid]
    exact ⟨follows.given,fun _ later => inet later,follows.done⟩
  | bridge =>
    refine ⟨follows.given,fun _ _ => trivial,?_⟩
    intro _ later other
    have begun : before < p.iterations := Nat.lt_of_succ_lt_succ later
    cases other with
    | inet => exact inet begun
    | bridge => exact bridge begun rfl

/- Nothing is pending and nothing is held. -/
theorem reachedIdle (sound : Sound p) (follows : Follows base before p) (held : (p.ways side).held = [])
    (none : (p.ways side).pending = []) : Reached base p side := by
  have given := (follows.given side).length_le
  rw [(sound.whole side).through held,none,List.append_nil] at given
  exact given

theorem afterIdle (sound : Sound p) (follows : Follows base before p) (valid : p.valid = true) (idle : Idle p)
    (none : (p.ways side).pending = []) (under : before < p.iterations → side = .bridge → Reached base p .inet) :
    Follows base before (afterSide p side) := by
  have here := reachedIdle sound follows (idle.held side) none
  cases side with
  | inet => exact afterFollows follows valid (fun _ => here) nofun
  | bridge => exact afterFollows follows valid (fun later => under later rfl) fun _ _ => here

theorem hasInputFollows {answer : Answer} (sound : Sound p) (follows : Follows base before p) (valid : p.valid = true)
    (at' : p.point = .hasInput side) (idle : Idle p) : Follows base before (hasInputStep p side answer) := by
  have open' : ¬p.valid = false := by rw [valid]; decide
  have under := follows.under valid
  rw [at'] at under
  unfold hasInputStep
  rw [if_neg open']
  cases answer with
  | again => exact follows
  | error => exact stopsFollows follows
  | real count =>
    dsimp only
    split
    · refine ⟨follows.given,?_,follows.done⟩
      intro _ later
      cases side with
      | inet => trivial
      | bridge => exact under later
    · rename_i unread
      have none : (p.ways side).pending = [] := by
        simp only [readable,valid,Bool.true_and,Bool.or_eq_true,Bool.not_eq_true',List.isEmpty_eq_false_iff] at unread
        exact not_not.mp fun some => unread (.inl some)
      refine afterIdle sound follows valid idle none ?_
      intro later same
      subst same
      exact under later

theorem hasDataFollows {answer : Answer} (sound : Sound p) (follows : Follows base before p) (valid : p.valid = true)
    (at' : p.point = .hasData side) (idle : Idle p) : Follows base before (hasDataStep p side answer) := by
  have open' : ¬p.valid = false := by rw [valid]; decide
  have under := follows.under valid
  rw [at'] at under
  unfold hasDataStep
  rw [if_neg open']
  cases answer with
  | again => exact stopsFollows follows
  | error => exact stopsFollows follows
  | real count =>
    dsimp only
    have counts := (sound.whole side).length
    have given := (follows.given side).length_le
    rw [counts] at given
    split
    · refine ⟨follows.given,?_,follows.done⟩
      intro _ later
      cases side with
      | inet => exact given
      | bridge => exact ⟨under later,given⟩
    · rename_i empty
      refine afterIdle sound follows valid idle (List.length_eq_zero_iff.mp (by omega)) ?_
      intro later same
      subst same
      exact under later

theorem recvFromFollows {answer : Answer} {len : Nat} (follows : Follows base before p) (valid : p.valid = true)
    (at' : p.point = .recvFrom side len) (receiving : Receiving p side len) :
    Follows base before (recvFromStep p side len answer) := by
  have open' : ¬p.valid = false := by rw [valid]; decide
  have under := follows.under valid
  have there := receiving.there
  have some := receiving.some
  rw [at'] at under
  unfold recvFromStep
  rw [if_neg open']
  cases answer with
  | again => exact follows
  | error => exact stopsFollows follows
  | real count =>
    dsimp only
    generalize same : min (count + 1) (min len (p.ways side).pending.length) = real
    have given : ∀ other, base other <+: ((onWay p side (·.take real)).ways other).given := fun other =>
      givenOn (f := (·.take real)) List.prefix_rfl (follows.given other)
    have reached : ∀ {other}, Reached base p other → Reached base (onWay p side (·.take real)) other :=
      reachedOn (f := (·.take real)) (Nat.le_refl _)
    have taken : ((onWay p side (·.take real)).ways side).taken = (p.ways side).taken + real := by
      rw [onWaySame,Conduit.takenTake]
      omega
    have done := fun later other => reached (follows.done valid later other)
    split
    · refine ⟨given,?_,fun _ => done⟩
      intro _ later
      cases side with
      | inet =>
        have under : _ ≤ _ + len := under later
        show (base .inet).length ≤ ((onWay p .inet (·.take real)).ways .inet).taken
        omega
      | bridge =>
        have under : _ ∧ _ ≤ _ + len := under later
        refine ⟨reached under.1,?_⟩
        show (base .bridge).length ≤ ((onWay p .bridge (·.take real)).ways .bridge).taken
        omega
    · split
      · refine ⟨given,?_,fun _ => done⟩
        intro _ later
        cases side with
        | inet =>
          have under : _ ≤ _ + len := under later
          show (base .inet).length ≤ ((onWay p .inet (·.take real)).ways .inet).taken + (len - real)
          omega
        | bridge =>
          have under : _ ∧ _ ≤ _ + len := under later
          refine ⟨reached under.1,?_⟩
          show (base .bridge).length ≤ ((onWay p .bridge (·.take real)).ways .bridge).taken + (len - real)
          omega
      · split
        · exact stopsFollows follows
        · exact follows

theorem sendToFollows {answer : Answer} {size : Nat} (follows : Follows base before p) (valid : p.valid = true)
    (at' : p.point = .sendTo side size) (sending : Sending p side size) :
    Follows base before (sendToStep p side size answer) := by
  have open' : ¬p.valid = false := by rw [valid]; decide
  have under := follows.under valid
  rw [at'] at under
  unfold sendToStep
  rw [if_neg open']
  cases answer with
  | again => exact follows
  | error => exact stopsFollows follows
  | real count =>
    dsimp only
    generalize min count (p.ways side).held.length = real
    have grows : (p.ways side).written.length ≤ ((p.ways side).pass real).written.length :=
      (Conduit.writtenPass (p.ways side) real).length_le
    have given : ∀ other, base other <+: ((onWay p side (·.pass real)).ways other).given := fun other =>
      givenOn (f := (·.pass real)) List.prefix_rfl (follows.given other)
    have reached : ∀ {other}, Reached base p other → Reached base (onWay p side (·.pass real)) other :=
      reachedOn (f := (·.pass real)) grows
    have taken : ∀ other, ((onWay p side (·.pass real)).ways other).taken = (p.ways other).taken :=
      onWayTaken (f := (·.pass real)) (Conduit.takenPass _ real)
    have done := fun later other => reached (follows.done valid later other)
    have onWay' : before < p.iterations → Underway base (onWay p side (·.pass real)) (.sendTo side size) := by
      intro later
      cases side with
      | inet => exact Nat.le_trans (under later) (Nat.le_of_eq (taken .inet).symm)
      | bridge => exact ⟨reached (under later).1,Nat.le_trans (under later).2 (Nat.le_of_eq (taken .bridge).symm)⟩
    split
    · rename_i all
      have idle := idleSent sending all
      have through : ∀ other, (base other).length ≤ (p.ways other).taken →
          Reached base (onWay p side (·.pass real)) other := by
        intro other has
        rw [← taken other,takenIdle (idle.held other)] at has
        exact has
      refine afterFollows ⟨given,?_,fun _ => done⟩ valid ?_ ?_
      · intro _ later
        show Underway base _ p.point
        rw [at']
        exact onWay' later
      · intro later
        cases side with
        | inet => exact through .inet (under later)
        | bridge => exact reached (under later).1
      · intro later same
        subst same
        exact through .bridge (under later).2
    · split
      · refine ⟨given,?_,fun _ => done⟩
        intro _ later
        show Underway base _ p.point
        rw [at']
        exact onWay' later
      · exact stopsFollows follows

theorem callFollows (sound : Sound p) (follows : Follows base before p) (valid : p.valid = true) (answer : Answer) :
    Follows base before (callStep p answer) := by
  have here := sound.here
  unfold callStep
  cases at' : p.point with
  | loop =>
    dsimp only
    split
    · exact ⟨follows.given,fun _ _ => trivial,follows.done⟩
    · exact stopsFollows follows
  | hasInput side =>
    rw [at'] at here
    exact hasInputFollows sound follows valid at' here
  | hasData side =>
    rw [at'] at here
    exact hasDataFollows sound follows valid at' here
  | recvFrom side len =>
    rw [at'] at here
    exact recvFromFollows follows valid at' here
  | sendTo side size =>
    rw [at'] at here
    exact sendToFollows follows valid at' here
  | stopped => exact follows

end

theorem underSame {base : Side → List UInt8} {p q : Proxy}
    (written : ∀ side, (p.ways side).written.length ≤ (q.ways side).written.length)
    (taken : ∀ side, (p.ways side).taken ≤ (q.ways side).taken) {point : Point} (under : Underway base p point) :
    Underway base q point := by
  cases point with
  | loop => trivial
  | hasInput side | hasData side =>
    cases side with
    | inet => trivial
    | bridge => exact Nat.le_trans under (written .inet)
  | recvFrom side len =>
    cases side with
    | inet => exact Nat.le_trans under (Nat.add_le_add_right (taken .inet) len)
    | bridge => exact ⟨Nat.le_trans under.1 (written .inet),
        Nat.le_trans under.2 (Nat.add_le_add_right (taken .bridge) len)⟩
  | sendTo side size =>
    cases side with
    | inet => exact Nat.le_trans under (taken .inet)
    | bridge => exact ⟨Nat.le_trans under.1 (written .inet),Nat.le_trans under.2 (taken .bridge)⟩
  | stopped => trivial

theorem offerFollows {base : Side → List UInt8} {before : Nat} {p : Proxy} (follows : Follows base before p) (side : Side)
    (bytes : List UInt8) : Follows base before (onWay p side (·.offer bytes)) := by
  have written : ∀ other, ((onWay p side (·.offer bytes)).ways other).written = (p.ways other).written :=
    onWayWritten (f := (·.offer bytes)) rfl
  have taken : ∀ other, ((onWay p side (·.offer bytes)).ways other).taken = (p.ways other).taken :=
    onWayTaken (f := (·.offer bytes)) rfl
  refine ⟨fun other => givenOn ?_ (follows.given other),?_,?_⟩
  · exact Conduit.givenOffer (p.ways side) bytes
  · intro valid later
    exact underSame (fun other => Nat.le_of_eq (congrArg List.length (written other)).symm)
      (fun other => Nat.le_of_eq (taken other).symm)
      (follows.under valid later)
  · intro valid later other
    exact reachedOn (Nat.le_refl _) (follows.done valid later other)

/- A socket that has been shut down stays so. -/
theorem callInvalid {p : Proxy} (invalid : p.valid = false) (answer : Answer) : (callStep p answer).valid = false := by
  have after : ∀ side, (afterSide p side).valid = false := by
    intro side
    cases side with
    | inet =>
      dsimp only [afterSide]
      rw [if_neg (by rw [invalid]; decide)]
      exact invalid
    | bridge => exact invalid
  unfold callStep
  cases p.point with
  | loop =>
    dsimp only
    rw [if_neg (by rw [invalid]; exact fun both => nomatch both.2)]
    exact invalid
  | hasInput side =>
    dsimp only [hasInputStep]
    rw [if_pos invalid]
    exact after side
  | hasData side =>
    dsimp only [hasDataStep]
    rw [if_pos invalid]
    exact after side
  | recvFrom side len =>
    dsimp only [recvFromStep]
    rw [if_pos invalid]
    exact invalid
  | sendTo side size =>
    dsimp only [sendToStep]
    rw [if_pos invalid]
    exact invalid
  | stopped => exact invalid

theorem stepFollows {base : Side → List UInt8} {before : Nat} (p : Proxy) (move : Move)
    (inv : Sound p ∧ (p.valid = true → Follows base before p)) :
    Sound (step p move) ∧ ((step p move).valid = true → Follows base before (step p move)) := by
  obtain ⟨sound,follows⟩ := inv
  refine ⟨stepSound p move sound,?_⟩
  intro valid
  cases move with
  | gives side bytes =>
    dsimp only [step] at valid ⊢
    split at valid
    · rename_i ended
      rw [if_pos ended]
      exact follows valid
    · rename_i ended
      rw [if_neg ended]
      exact offerFollows (follows valid) side bytes
  | ends side =>
    have before := follows valid
    exact ⟨before.given,before.under,before.done⟩
  | call answer =>
    have earlier : p.valid = true := by
      by_contra invalid
      have := callInvalid (Bool.not_eq_true _ ▸ invalid) answer
      exact Bool.false_ne_true (this.symm.trans valid)
    exact callFollows sound (follows earlier) earlier answer
  | stopEventLoop =>
    have before := follows valid
    exact ⟨before.given,before.under,before.done⟩
  | shutdown => exact nomatch valid

/- What the peers have sent when an iteration is under way is relayed when the next one is over, whatever they
send meanwhile and however the kernel cuts it. -/
theorem relayKeepsUp (earlier later : List Move) (side : Side) :
    let p := run step proxyStartEventLoop earlier
    let q := run step p later
    q.valid = true → p.iterations + 2 ≤ q.iterations → (p.ways side).given <+: (q.ways side).written := by
  intro p q valid iterations
  have sound : Sound p := runInvariant stepSound startSound earlier
  have start : Sound p ∧ (p.valid = true → Follows (fun side => (p.ways side).given) p.iterations p) :=
    ⟨sound,fun _ => ⟨fun _ => List.prefix_rfl,fun _ less => absurd less (Nat.lt_irrefl _),
      fun _ less => absurd less (by omega)⟩⟩
  obtain ⟨after,follows⟩ := runInvariant stepFollows start later
  have reached : (p.ways side).given.length ≤ (q.ways side).written.length := (follows valid).done valid iterations side
  exact List.prefix_of_prefix_length_le ((follows valid).given side) (after.whole side).writtenGiven reached

theorem lateKeptUp : [9,8] <+: ((run step (run step proxyStartEventLoop
      [.call (.real 1),.call (.real 1),.call (.real 1),.gives .inet [9,8]])
    [.call (.real 1),.call (.real 1),.gives .inet [7],.call (.real 1),.call (.real 1),.call (.real 1),.call (.real 1),
      .call (.real 2),.call (.real 2),.call (.real 2),.call (.real 2),.call (.real 2)]).ways .inet).written :=
  relayKeepsUp [.call (.real 1),.call (.real 1),.call (.real 1),.gives .inet [9,8]] _ .inet (by decide) (by decide)

end Ltsm.ProxyRelay
