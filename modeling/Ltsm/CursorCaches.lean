import Ltsm.ServerMessages
import Ltsm.Library.Run

/-! The cursors of a session. The server remembers the numbers of the images it has sent and leaves
their pixels out, the client keeps a cursor for each number, and reports the ones it can not show. -/
namespace Ltsm.CursorCaches
open Library ServerMessages

structure Cursor where
  xhot : UInt16
  yhot : UInt16
  width : UInt16
  height : UInt16
  pixels : Bytes
  deriving DecidableEq, Repr

def Cursor.id (c : Cursor) : UInt32 := crc32b c.pixels

/- What is on the screen. -/
structure Drawn where
  hotX : Int
  hotY : Int
  width : UInt16
  height : UInt16
  pixels : Bytes
  deriving DecidableEq, Repr

def Cursor.drawn (c : Cursor) : Drawn := ⟨c.xhot.toNat,c.yhot.toNat,c.width,c.height,c.pixels⟩

/- A message names the cursor, and tells its pixels or not. -/
structure Message where
  cursor : Cursor
  told : Bool
  deriving DecidableEq, Repr

def Message.pixels (m : Message) : Bytes := if m.told then m.cursor.pixels else []

/- The hot spot comes in as the corner of a region. -/
def Message.drawn (m : Message) : Drawn :=
  ⟨m.cursor.xhot.toInt16.toInt,m.cursor.yhot.toInt16.toInt,m.cursor.width,m.cursor.height,m.pixels⟩

structure Caches where
  cursorSended : List UInt32
  toClient : List Message
  toServer : List UInt32
  cursors : List (UInt32 × Option Drawn)
  shown : Option Drawn
  last : Option Cursor
  reported : List UInt32
  outOfStep : Bool
  deriving DecidableEq, Repr

def start : Caches := ⟨[],[],[],[],none,none,[],false⟩

/- How far the making of a cursor comes: the surface for it and the cursor itself. -/
inductive Made
  | noSurface
  | noCursor
  | cursor
  deriving DecidableEq, Repr

inductive Action
  | send (c : Cursor) (compressed : Bool)
  | receive (made : Made)
  | clear
  | cursorFailed
  deriving DecidableEq, Repr

/- Behind a raw size of none the client does not look for a compressed one. -/
def sendEncodingLtsmCursor (c : Cursor) (compressed : Bool) (s : Caches) : Caches :=
  if s.cursorSended.all fun curid => curid ≠ c.id then
    if compressed then
      {s with
        cursorSended := c.id :: s.cursorSended
        toClient := s.toClient ++ [⟨c,true⟩]
        last := some c
        outOfStep := s.outOfStep || c.pixels.length % 4294967296 = 0}
    else {s with toClient := s.toClient ++ [⟨c,false⟩],last := some c}
  else {s with toClient := s.toClient ++ [⟨c,false⟩],last := some c}

def sendSystemCursorFailed (cursorId : UInt32) (s : Caches) : Caches :=
  {s with toServer := s.toServer ++ [cursorId],reported := cursorId :: s.reported}

/- An entry without a cursor leaves the one that is shown. -/
def setCursor (cursor : Option Drawn) (s : Caches) : Caches := {s with shown := cursor.or s.shown}

def clientRecvLtsmCursorEvent (m : Message) (made : Made) (s : Caches) : Caches :=
  match s.cursors.lookup m.cursor.id with
  | some cursor => setCursor cursor s
  | none =>
    if m.pixels = [] then sendSystemCursorFailed m.cursor.id s
    else if m.pixels.length < m.cursor.width.toNat * m.cursor.height.toNat * 4 then s
    else
      match made with
      | .noSurface => s
      | .noCursor =>
        sendSystemCursorFailed m.cursor.id {s with cursors := (m.cursor.id,none) :: s.cursors}
      | .cursor => setCursor (some m.drawn) {s with cursors := (m.cursor.id,some m.drawn) :: s.cursors}

def receive (made : Made) (s : Caches) : Caches :=
  match s.toClient with
  | [] => s
  | m :: rest => clientRecvLtsmCursorEvent m made {s with toClient := rest}

/- The window changes its size; the cursor on the screen is one of them. -/
def clear (s : Caches) : Caches := {s with cursors := [],shown := none}

/- With systemCursorFailed, which takes the number zero for a missing one. -/
def cursorFailed (s : Caches) : Caches :=
  match s.toServer with
  | [] => s
  | cursorId :: rest =>
    if cursorId ≠ 0 then
      {s with toServer := rest,cursorSended := s.cursorSended.filter fun curid => curid ≠ cursorId}
    else {s with toServer := rest}

def step (s : Caches) (a : Action) : Caches :=
  if s.outOfStep then s
  else
    match a with
    | .send c compressed => sendEncodingLtsmCursor c compressed s
    | .receive made => receive made s
    | .clear => clear s
    | .cursorFailed => cursorFailed s

/- The server sends the pixels the next time. -/
def Forgotten (s : Caches) (cursorId : UInt32) : Prop := cursorId ∉ s.cursorSended

/- A report has been made, and has come or is on its way and will be heard. -/
def Reported (s : Caches) (cursorId : UInt32) : Prop :=
  cursorId ∈ s.reported ∧ (cursorId ∈ s.toServer ∧ cursorId ≠ 0 ∨ Forgotten s cursorId)

/- Once the client has taken all messages it shows the last one, or has reported it. -/
structure Agreed (s : Caches) : Prop where
  inStep : s.outOfStep = false
  shows : s.toClient = [] → ∀ c, s.last = some c → s.shown = some c.drawn ∨ Reported s c.id

/- The last message, where it finds a cursor of the number or the makings of one. -/
def Fits (m : Message) (made : Made) (s : Caches) : Prop :=
  let stands := s.shown = some m.cursor.drawn ∨ Reported s m.cursor.id
  let heard := s.shown = some m.cursor.drawn ∨ m.cursor.id ≠ 0 ∨ Forgotten s m.cursor.id
  match s.cursors.lookup m.cursor.id with
  | some (some cursor) => cursor = m.cursor.drawn ∨ Reported s m.cursor.id
  | some none => stands
  | none =>
    if m.pixels = [] then heard
    else if m.pixels.length < m.cursor.width.toNat * m.cursor.height.toNat * 4 then stands
    else
      match made with
      | .noSurface => stands
      | .noCursor => heard
      | .cursor => m.drawn = m.cursor.drawn ∨ Reported s m.cursor.id

def Kept (s : Caches) : Action → Prop
  | .send c compressed => c.id ∉ s.cursorSended → compressed = true → c.pixels.length % 4294967296 ≠ 0
  | .receive made => ∀ m, s.toClient = [m] → Fits m made s
  | .clear => s.toClient = [] → ∀ c, s.last = some c → Reported s c.id
  | .cursorFailed => True

/- The last message on its way is of the last cursor. -/
def InOrder (s : Caches) : Prop := ∀ m, s.toClient.getLast? = some m → s.last = some m.cursor

section
variable {s : Caches} {m : Message} {made : Made} {c : Cursor}

theorem clientKeeps (m : Message) (made : Made) (s : Caches) :
    (clientRecvLtsmCursorEvent m made s).toClient = s.toClient ∧
      (clientRecvLtsmCursorEvent m made s).last = s.last ∧
      (clientRecvLtsmCursorEvent m made s).outOfStep = s.outOfStep := by
  unfold clientRecvLtsmCursorEvent sendSystemCursorFailed setCursor
  split
  · exact ⟨rfl,rfl,rfl⟩
  · split_ifs
    · exact ⟨rfl,rfl,rfl⟩
    · exact ⟨rfl,rfl,rfl⟩
    · cases made <;> exact ⟨rfl,rfl,rfl⟩

theorem stepOrder (s : Caches) (a : Action) (order : InOrder s) : InOrder (step s a) := by
  unfold step
  split
  · exact order
  · cases a with
    | send c compressed =>
      have last (told : Bool) : ∀ m, (s.toClient ++ [(⟨c,told⟩ : Message)]).getLast? = some m → some c = some m.cursor := by
        intro m final
        rw [List.getLast?_concat] at final
        rw [← Option.some.inj final]
      dsimp only
      unfold sendEncodingLtsmCursor
      split_ifs
      · exact last true
      · exact last false
      · exact last false
    | receive made =>
      dsimp only
      unfold receive
      split
      · exact order
      · rename_i m rest messages
        obtain ⟨toClient,last,_⟩ := clientKeeps m made {s with toClient := rest}
        intro other final
        rw [toClient] at final
        rw [last]
        refine order other ?_
        rw [messages,List.getLast?_cons,final]
        rfl
    | clear => exact order
    | cursorFailed =>
      dsimp only
      unfold cursorFailed
      split
      · exact order
      · split <;> exact order

/- A report is heard if the number is one to be heard, or the server has forgotten it already. -/
theorem reportedNow (cursorId : UInt32) (s : Caches) :
    Reported (sendSystemCursorFailed cursorId s) cursorId ↔ cursorId ≠ 0 ∨ Forgotten s cursorId := by
  simp [Reported,sendSystemCursorFailed,Forgotten]

theorem fitsIff (m : Message) (made : Made) (rest : List Message) (s : Caches) :
    ((clientRecvLtsmCursorEvent m made {s with toClient := rest}).shown = some m.cursor.drawn ∨
      Reported (clientRecvLtsmCursorEvent m made {s with toClient := rest}) m.cursor.id) ↔ Fits m made s := by
  unfold clientRecvLtsmCursorEvent Fits
  dsimp only
  cases entry : s.cursors.lookup m.cursor.id with
  | some cursor =>
    cases cursor with
    | some drawn => exact or_congr_left (by simp [setCursor])
    | none => exact Iff.rfl
  | none =>
    dsimp only
    split_ifs
    · exact or_congr_right (reportedNow _ _)
    · exact Iff.rfl
    · cases made with
      | noSurface => exact Iff.rfl
      | noCursor => exact or_congr_right (reportedNow _ _)
      | cursor => exact or_congr_left (by simp [setCursor])

theorem keepsAgreed (s : Caches) (a : Action) (order : InOrder s) (agreed : Agreed s) :
    Agreed (step s a) ↔ Kept s a := by
  have inStep := agreed.inStep
  unfold step
  rw [if_neg (by simp [inStep])]
  cases a with
  | send c compressed =>
    dsimp only [Kept]
    unfold sendEncodingLtsmCursor
    split_ifs with unknown zlib
    · have new : c.id ∉ s.cursorSended := fun known => by simpa using List.all_eq_true.mp unknown c.id known
      simp only [new,zlib,not_false_eq_true,forall_true_left]
      constructor
      · intro after
        simpa [inStep] using after.inStep
      · exact fun raw => ⟨by simp [inStep,raw],by simp⟩
    · exact iff_of_true ⟨inStep,by simp⟩ fun _ compressed => absurd compressed zlib
    · refine iff_of_true ⟨inStep,by simp⟩ fun new => absurd ?_ unknown
      rw [List.all_eq_true]
      intro curid known
      simpa using ne_of_mem_of_not_mem known new
  | receive made =>
    dsimp only [Kept]
    unfold receive
    cases messages : s.toClient with
    | nil => exact iff_of_true agreed (by simp)
    | cons m rest =>
      obtain ⟨toClient,last,broken⟩ := clientKeeps m made {s with toClient := rest}
      cases rest with
      | nil =>
        have final : s.last = some m.cursor := order m (by rw [messages]; rfl)
        simp only [List.cons.injEq,and_true,forall_eq']
        rw [← fitsIff m made []]
        constructor
        · exact fun after => after.shows toClient m.cursor (last.trans final)
        · intro shows
          refine ⟨broken.trans inStep,fun _ c sent => ?_⟩
          rw [last] at sent
          have same : m.cursor = c := Option.some.inj (final.symm.trans sent)
          rw [← same]
          exact shows
      | cons next rest =>
        refine iff_of_true ⟨broken.trans inStep,fun none => ?_⟩ (by simp)
        rw [toClient] at none
        contradiction
  | clear =>
    constructor
    · intro after none c sent
      rcases after.shows none c sent with shown | reported
      · exact absurd shown (by simp [clear])
      · exact reported
    · exact fun reported => ⟨inStep,fun none c sent => .inr (reported none c sent)⟩
  | cursorFailed =>
    refine iff_of_true ?_ trivial
    dsimp only
    unfold cursorFailed
    split
    · exact agreed
    · rename_i cursorId rest reports
      have later (c : Cursor) (id : c.id ∈ s.toServer) (other : c.id ≠ cursorId) : c.id ∈ rest := by
        rw [reports] at id
        exact (List.mem_cons.mp id).resolve_left other
      split
      · rename_i heard
        refine ⟨inStep,fun none c sent => (agreed.shows none c sent).imp_right fun reported => ?_⟩
        refine ⟨reported.1,?_⟩
        by_cases same : c.id = cursorId
        · exact .inr (by simp [Forgotten,same])
        · exact reported.2.imp (fun waits => ⟨later c waits.1 same,waits.2⟩) fun forgotten => by
            simpa [Forgotten,same] using forgotten
      · rename_i zero
        refine ⟨inStep,fun none c sent => (agreed.shows none c sent).imp_right fun reported => ?_⟩
        refine ⟨reported.1,reported.2.imp_left fun waits => ⟨later c waits.1 ?_,waits.2⟩⟩
        rw [not_not.mp zero]
        exact waits.2

theorem startAgreed : Agreed start ∧ InOrder start := ⟨⟨rfl,by simp [start]⟩,by simp [InOrder,start]⟩

/- With no message and no report on its way. -/
theorem settledAgreed (agreed : Agreed s) (messages : s.toClient = []) (reports : s.toServer = []) :
    ∀ c, s.last = some c → s.shown = some c.drawn ∨ c.id ∈ s.reported ∧ c.id ∉ s.cursorSended := by
  intro c sent
  refine (agreed.shows messages c sent).imp_right fun reported => ⟨reported.1,reported.2.resolve_left ?_⟩
  simp [reports]

end

theorem cursorsAgree (actions : List Action) :
    Always step Agreed start actions ↔ Meets step Kept start actions :=
  alwaysIff stepOrder keepsAgreed startAgreed.2 startAgreed.1 actions

def arrow : Cursor := ⟨0,0,1,1,[0,0,0,255]⟩

/- The same pixels with another hot spot. -/
def pointer : Cursor := ⟨1,0,1,1,[0,0,0,255]⟩

theorem hotSpotKept : ¬ ∀ actions, Always step Agreed start actions := by
  intro all
  have reached := all [.send arrow true,.receive .cursor,.send pointer true,.receive .cursor] _ (List.prefix_refl _)
  have settled := settledAgreed reached (by decide +kernel) (by decide +kernel) pointer (by decide +kernel)
  exact absurd settled (by decide +kernel)

end Ltsm.CursorCaches
