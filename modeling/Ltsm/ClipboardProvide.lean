import Ltsm.ExtClipboard
import Ltsm.Library.FirstMatch

/-! A Provide message from one end to the other. The sender writes no word of flags, so
the receiver takes the length of the compressed data for one. -/
namespace Ltsm.ClipboardProvide
open Library PixelStreams ZLibBlocks CutText ExtClipboard

/- The formats of the set, each with what the sender holds of it. -/
def contents (owner : Owner) (types : Nat) : List (Nat × Bytes) :=
  (knownTypes.filter (allows types)).filterMap fun type => (owner.localData type).map (type.bit,·)

/- The message put into a frame, sent, and handled at the other end; with it, what the
handler leaves of the stream. -/
def exchange (z : ZLib) (side : Side) (senderCaps : Nat) (owner other : Owner) (types : Nat)
    (clip : ExtClip) : Option (Outcome × Bytes) := do
  let msg ← provideMessage z owner types
  let frame ← sendCutText side.type senderCaps msg true
  let (_,stream) ← recvInt8.run frame
  let (received,rest) ← (side.recv clip.localFlags).run stream
  match received with
  | .extended buf => pure (recvExtClipboardCapsEvent z other buf clip,rest)
  | _ => none

/- The other end gets the same formats with the same data, and nothing is left. -/
def RoundTrips (z : ZLib) (side : Side) (senderCaps : Nat) (owner other : Owner) (types : Nat)
    (clip : ExtClip) : Prop :=
  ∃ out, exchange z side senderCaps owner other types clip = some (out,[]) ∧ out.threw = false ∧
    ∀ pair, pair ∈ out.delivered ↔ pair ∈ contents owner types

section
variable {z : ZLib} {owner : Owner} {clip : ExtClip}

theorem outcomeQuiet {result : Option (ExtClip × List Event)}
    (quiet : ∀ made ∈ result, made.2.filterMap isRemoteData = []) : (outcomeOf clip result).delivered = [] := by
  cases result with
  | none => rfl
  | some made => exact quiet made rfl

theorem continueQuiet (flags : Nat) (sb : Bytes) :
    (recvExtClipboardCapsContinue flags sb clip).delivered = [] := by
  apply outcomeQuiet
  intro made mem
  obtain ⟨sizes,_,rfl⟩ := Option.mem_map.mp mem
  rfl

theorem requestQuiet (flags : Nat) : (recvExtClipboardRequest z owner flags clip).delivered = [] := by
  unfold recvExtClipboardRequest sendExtClipboardProvide
  split
  · apply outcomeQuiet
    intro made mem
    obtain ⟨buf,_,rfl⟩ := Option.mem_map.mp mem
    rfl
  · rfl

theorem peekQuiet : (recvExtClipboardPeek owner clip).delivered = [] := by
  unfold recvExtClipboardPeek
  split <;> rfl

theorem notifyQuiet (flags : Nat) : (recvExtClipboardNotify flags clip).delivered = [] := by
  unfold recvExtClipboardNotify extClipboardRemoteTypesEvent
  split
  · split <;> rfl
  · rfl

theorem runTake {count : Nat} {bytes : Bytes} :
    (takeBytes count).run bytes =
      if count ≤ bytes.length then some (bytes.take count,bytes.drop count) else none := rfl

theorem recvInt32Run {bytes rest : Bytes} {value : Nat} (ran : recvIntBE32.run bytes = some (value,rest)) :
    4 ≤ bytes.length ∧ value = ofBigEndian (bytes.take 4) ∧ rest = bytes.drop 4 := by
  simp only [recvIntBE32,StateT.run_bind,runTake] at ran
  split at ran
  · obtain ⟨rfl,rfl⟩ := Prod.mk.inj (Option.some.inj ran)
    exact ⟨by assumption,rfl,rfl⟩
  · cases ran

/- The data of a zlib stream, taken for a length, claims nearly two gigabytes. -/
theorem headLarge {zip : Bytes} (headed : zip.head? = some 0x78) (four : 4 ≤ zip.length) :
    0x78000000 ≤ ofBigEndian (zip.take 4) := by
  obtain ⟨tail,rfl⟩ := List.head?_eq_some_iff.mp headed
  rw [List.take_succ_cons,ofBigEndianCons,List.length_take]
  have long : 3 ≤ tail.length := by simpa using four
  rw [Nat.min_eq_left long]
  change 0x78000000 ≤ _ + 0x1000000 * 0x78
  omega

theorem topBit (flags : Nat) (low : 0x78000000 ≤ flags) (high : flags < 0x80000000) :
    flags.testBit 27 = true := by
  rw [Nat.testBit_eq_decide_div_mod_eq]
  have quotient : flags / 2 ^ 27 = 15 := by omega
  rw [quotient]
  rfl

/- What the length of the compressed data asks for is more than a frame of that length holds,
unless the length has the bit of another operation. -/
theorem provideQuiet {zip : Bytes} (headed : zip.head? = some 0x78) {size : Nat}
    (part : size ≤ zip.length) (small : size < 0x80000000) (other : size.testBit 27 = false) :
    (recvExtClipboardProvide z (zip.take size) clip).delivered = [] := by
  unfold recvExtClipboardProvide
  split
  · split
    · rfl
    rename_i len rest ran
    obtain ⟨four,claimed,left⟩ := recvInt32Run ran
    rw [List.length_take,Nat.min_eq_left part] at four
    rw [List.take_take,Nat.min_eq_left four] at claimed
    have large := headLarge headed (by omega)
    rw [← claimed] at large
    have short : rest.length = size - 4 := by
      rw [left,List.length_drop,List.length_take,Nat.min_eq_left part]
    have beyond : ¬len ≤ rest.length := by
      intro within
      have set := topBit size (by omega) small
      rw [set] at other
      cases other
    have unread : (read len).run rest = none := by
      change (if len = 0 then _ else takeBytes len rest) = none
      rw [if_neg (by omega),takeBytes,if_neg beyond]
    rw [if_neg (by omega),unread]
    rfl
  · rfl

theorem headlessQuiet {zip : Bytes} (headed : zip.head? = some 0x78) {size : Nat}
    (part : size ≤ zip.length + 4) (small : size < 0x80000000)
    (wrapped : size = (zip.length + 4) % 4294967296) :
    (recvExtClipboardCapsEvent z owner ((sendIntBE32 zip.length ++ zip).take size) clip).delivered = [] := by
  have header : (sendIntBE32 zip.length).length = 4 := lengthBigEndian 4 zip.length
  unfold recvExtClipboardCapsEvent
  split
  · rfl
  rename_i flags sb ran
  obtain ⟨four,word,left⟩ := recvInt32Run ran
  rw [List.length_take,List.length_append,header,Nat.min_eq_left (by omega)] at four
  rw [List.take_take,Nat.min_eq_left four,List.take_append_of_le_length header.ge,
    List.take_of_length_le header.le,sendIntBE32,ofBigEndianOf] at word
  have counted : flags = size - 4 := by
    change flags = zip.length % 4294967296 at word
    omega
  rw [List.take_append,List.drop_append,header,List.drop_take,
    List.drop_of_length_le header.le,List.take_nil,List.nil_append,List.length_take,header,
    Nat.min_eq_right four,Nat.sub_self,List.drop_zero] at left
  split
  · split
    · rfl
    · exact continueQuiet flags sb
  split
  · rfl
  split
  · exact requestQuiet flags
  split
  · exact peekQuiet
  split
  · exact notifyQuiet flags
  rename_i notNotify
  rw [left,← counted]
  exact provideQuiet headed (by omega) (by omega) (by simpa [allows,ExtClipCaps.bit] using notNotify)

theorem recvAbsRun {length : Int} {msg buf rest : Bytes} (ran : (recvAbs length).run msg = some (buf,rest)) :
    length ≠ -2147483648 ∧ length.natAbs ≤ msg.length ∧ buf = msg.take length.natAbs := by
  unfold recvAbs at ran
  split at ran
  · cases ran
  rename_i ordinary
  rw [runTake] at ran
  split at ran
  · obtain ⟨rfl,rfl⟩ := Prod.mk.inj (Option.some.inj ran)
    exact ⟨ordinary,by assumption,rfl⟩
  · cases ran

theorem readsPrefix {word : Nat} (small : word < 4294967296) (bytes : Bytes) {β : Type} (f : Nat → Reader β) :
    (recvSkip 3 >>= fun _ => recvIntBE32 >>= f).run (sendZero 3 ++ (sendIntBE32 word ++ bytes)) =
      (f word).run bytes := by
  rw [StateT.run_bind,readsZero 3,Option.bind_eq_bind,Option.bind_some,StateT.run_bind,
    UpdateMessages.readsSmall32 small]
  rfl

/- Either end takes as much of an extended message as its length says in 32 bits. -/
theorem extendedPrefix (side : Side) (caps : Nat) {msg buf rest : Bytes}
    (ran : (side.recv caps).run (sendZero 3 ++ (sendIntBE32 (extLength msg.length) ++ msg)) =
      some (.extended buf,rest)) :
    ∃ size, buf = msg.take size ∧ size ≤ msg.length ∧ size < 0x80000000 ∧
      size = msg.length % 4294967296 := by
  have measured : (extLength msg.length : Int) = (4294967296 - msg.length) % 4294967296 := by
    unfold extLength
    omega
  have taken {left : Bytes} (negative : toInt32 (extLength msg.length) < 0)
      (got : (recvAbs (toInt32 (extLength msg.length))).run msg = some (buf,left)) :
      ∃ size, buf = msg.take size ∧ size ≤ msg.length ∧ size < 0x80000000 ∧
        size = msg.length % 4294967296 := by
    obtain ⟨ordinary,within,same⟩ := recvAbsRun got
    have least : extLength msg.length < 4294967296 := extLengthSmall msg.length
    refine ⟨_,same,within,?_,?_⟩
    · unfold toInt32 at ordinary negative ⊢
      split at negative
      · omega
      · omega
    · unfold toInt32 at ordinary negative ⊢
      split at negative
      · omega
      · omega
  cases side with
  | server limit =>
    rw [Side.recv,recvCutText,readsPrefix (extLengthSmall _)] at ran
    dsimp only at ran
    split at ran
    · simp only [StateT.run_bind,Option.bind_eq_bind,Option.bind_eq_some_iff] at ran
      obtain ⟨_,_,_,_,last⟩ := ran
      cases last
    split at ran
    · rename_i negative
      split at ran
      · cases ran
      · simp only [StateT.run_bind,Option.bind_eq_bind,Option.bind_eq_some_iff] at ran
        obtain ⟨⟨got,left⟩,made,last⟩ := ran
        cases last
        exact taken negative made
    · cases ran
  | client =>
    rw [Side.recv,recvCutTextEvent,readsPrefix (extLengthSmall _)] at ran
    dsimp only at ran
    split at ran
    · cases ran
    simp only [StateT.run_bind,Option.bind_eq_bind,Option.bind_eq_some_iff] at ran
    obtain ⟨⟨got,left⟩,made,last⟩ := ran
    dsimp only at last
    split at last
    · cases last
    split at last
    · cases last
    · cases last
      exact taken (by omega) made

theorem streamFilled {types : Nat} (some : ∃ type ∈ knownTypes, allows types type = true) {stream : Bytes}
    (made : formatStream owner types = .some stream) : stream ≠ [] := by
  obtain ⟨type,known,asked⟩ := some
  simp only [formatStream,bind,Option.bind_eq_some_iff] at made
  obtain ⟨parts,read,joined⟩ := made
  have counted := (mapMForall read).length_eq
  have first : 0 < parts.length := by
    rw [← counted]
    exact List.length_pos_of_mem (List.mem_filter.mpr ⟨known,asked⟩)
  cases parts with
  | nil => cases first
  | cons buf rest =>
    cases Option.some.inj joined
    intro none
    have sized := congrArg List.length none
    rw [List.flatMap_cons,List.length_append,List.length_append,sendIntBE32,lengthBigEndian] at sized
    change 4 + _ + _ = 0 at sized
    omega

theorem exchangeQuiet (h : z.Headed) {types : Nat} (some : ∃ type ∈ knownTypes, allows types type = true)
    {side : Side} {senderCaps : Nat} {other : Owner} {out : Outcome} {rest : Bytes}
    (sent : exchange z side senderCaps owner other types clip = .some (out,rest)) : out.delivered = [] := by
  simp only [exchange,provideMessage,bind,Option.bind_assoc,Option.bind_eq_some_iff] at sent
  obtain ⟨stream,made,msg,message,frame,framed,⟨type,left⟩,typed,⟨received,after⟩,ran,handled⟩ := sent
  cases Option.some.inj message
  have filled := streamFilled some made
  have zipped : z.deflateData stream = z.deflate stream := if_neg filled
  rw [zipped] at framed
  unfold sendCutText at framed
  split at framed
  · cases framed
  cases Option.some.inj framed
  rw [readsInt8] at typed
  cases Option.some.inj typed
  simp only [if_true] at handled ran
  split at handled
  · rename_i buf
    cases Option.some.inj handled
    obtain ⟨size,rfl,within,small,wrapped⟩ := extendedPrefix side _ ran
    have length : (sendIntBE32 (z.deflate stream).length ++ z.deflate stream).length =
        (z.deflate stream).length + 4 := by
      rw [List.length_append,sendIntBE32,lengthBigEndian,Nat.add_comm]
    rw [length] at within wrapped
    exact headlessQuiet (h stream filled) within small wrapped
  · cases handled

/- No set of formats ever arrives. -/
theorem provideNeverArrives (h : z.Headed) (side : Side) (senderCaps : Nat) (owner other : Owner)
    (clip : ExtClip) {types : Nat} (some : ∃ type ∈ knownTypes, allows types type = true) :
    ¬RoundTrips z side senderCaps owner other types clip := by
  rintro ⟨out,sent,-,arrived⟩
  have none := exchangeQuiet h some sent
  have empty : contents owner types = [] := by
    apply List.eq_nil_iff_forall_not_mem.mpr
    intro pair mem
    have got := (arrived pair).mpr mem
    rw [none] at got
    cases got
  obtain ⟨type,known,asked⟩ := some
  simp only [exchange,provideMessage,formatStream,bind,Option.bind_assoc,Option.bind_eq_some_iff] at sent
  obtain ⟨parts,read,-⟩ := sent
  obtain ⟨buf,_,held⟩ := forallTarget (mapMForall read) (List.mem_filter.mpr ⟨known,asked⟩)
  have listed : (type.bit,buf) ∈ contents owner types :=
    List.mem_filterMap.mpr ⟨type,List.mem_filter.mpr ⟨known,asked⟩,by rw [held]; rfl⟩
  rw [empty] at listed
  cases listed

end

/- What zlib makes of a text of two letters. -/
def textBlock : Bytes := [0x00,0x00,0x00,0x02,0x68,0x69]
def textZip : Bytes := [0x78,0xDA,0x62,0x60,0x60,0x60,0xCA,0xC8,0x04,0x00,0x00,0x00,0xFF,0xFF]
def textZLib : ZLib := .recorded textBlock textZip

def textOwner : Owner := ⟨1,fun type => if type = .typeText then some [0x68,0x69] else some []⟩

def askedText : ExtClip := {remoteFlags := usualFlags, localFlags := usualFlags, localProvideTypes := 1}

theorem provideNeverArrivesText :
    (∃ type ∈ knownTypes, allows 1 type = true) ∧
      ¬RoundTrips textZLib .client usualFlags textOwner textOwner 1 askedText :=
  ⟨⟨.typeText,by decide,rfl⟩,provideNeverArrives (ZLib.recordedHeaded textBlock rfl) .client usualFlags
    textOwner textOwner askedText ⟨.typeText,by decide,rfl⟩⟩

/- The text was asked for; its message is taken for one without an operation. -/
theorem askedTextIgnored :
    provideMessage textZLib textOwner 1 = some ([0x00,0x00,0x00,0x0E] ++ textZip) ∧
    exchange textZLib .client usualFlags textOwner textOwner 1 askedText = some ({clip := askedText},[]) ∧
    contents textOwner 1 = [(0,[0x68,0x69])] ∧
    ¬RoundTrips textZLib .client usualFlags textOwner textOwner 1 askedText := by
  have ignored : exchange textZLib .client usualFlags textOwner textOwner 1 askedText =
      some ({clip := askedText},[]) := by decide +kernel
  refine ⟨by decide +kernel,ignored,rfl,?_⟩
  rintro ⟨out,sent,-,arrived⟩
  rw [ignored] at sent
  cases Option.some.inj sent
  have got := (arrived (0,[0x68,0x69])).mpr List.mem_cons_self
  cases got

end Ltsm.ClipboardProvide
