import Ltsm.ChannelEnds
import Ltsm.Library.ByteReader
import Ltsm.Library.FirstMatch
import Mathlib.Data.List.TakeWhile

/-! The address and the port that a socket url gives, against what the text of the url says. A dotted
address is looked at and then left aside, and the numbers are read as far as they go. -/
namespace Ltsm.SocketAddresses
open Channel ChannelClient Library

/- What a text stands for: decimal digits and nothing else. -/
def value (chars : List Char) : Nat := chars.foldl (fun n c => 10 * n + (c.toNat - '0'.toNat)) 0

def numeral (chars : List Char) : Option Nat :=
  if chars ≠ [] ∧ chars.all Char.isDigit = true then some (value chars) else none

def portOf (chars : List Char) : Option Nat := (numeral chars).filter fun port => 1 ≤ port ∧ port ≤ 65535

def octetsOf (host : List Char) : Option (List Nat) :=
  if (host.splitOn '.').length = 4 then (host.splitOn '.').mapM numeral else none

/- Numbers between dots are an address, and everything else is the name of a host. -/
def addressOf (resolvHostname : String → String) (host : List Char) : Option String :=
  match octetsOf host with
  | some octets => if octets.all (· ≤ 255) then some (String.ofList host) else none
  | none =>
    if host = [] ∨ resolvHostname (String.ofList host) = "" then none
    else some (resolvHostname (String.ofList host))

def named (resolvHostname : String → String) (addrPort : String) : Option (String × Int) :=
  match addrPort.toList.splitOn ':' with
  | [host,port] => do
    let addr ← addressOf resolvHostname host
    let number ← portOf port
    pure (addr,(number : Int))
  | _ => none

/- The result is what the text names, or a negative port where it names nothing; and so no socket is
made and no request sent but for what it names. -/
structure Names (resolvHostname : String → String) (addrPort : String) : Prop where
  result : match named resolvHostname addrPort with
    | some ipAddrPort => parseAddrPort resolvHostname addrPort = ipAddrPort
    | none => (parseAddrPort resolvHostname addrPort).2 < 0
  socket : ∀ (ep : Endpoint) (os : Os) (job : Option Planned) (channel : UInt8) (mode : ConnectorMode)
    (chOpts : Opts) (s : State),
    createChannelSocket ep os job channel (parseAddrPort resolvHostname addrPort) mode chOpts s = (false,s) ∨
      named resolvHostname addrPort = some (parseAddrPort resolvHostname addrPort)
  opens : ∀ (os : Os) (channel : UInt8) (clientOpts : UrlMode) (chOpts : Opts), os.resolvHostname = resolvHostname →
    clientOpts.type = .socket → clientOpts.content = addrPort →
    let msg := ChannelEnds.openRequest os channel clientOpts chOpts
    msg.port < 0 ∨ named resolvHostname addrPort = some (msg.ipaddr,msg.port)

/- Of a text whose second part is read as a port: nothing was left out, the port is one, and the host
is the address that is taken in any case, or known where it has not four parts. -/
def Kept (resolvHostname : String → String) (addrPort : String) : Prop :=
  ∀ host port v, split addrPort ':' = [host,port] → stoi port = some v → 0 ≤ v →
    addrPort = host ++ ":" ++ port ∧ port.toList.all Char.isDigit = true ∧ 1 ≤ v ∧ v ≤ 65535 ∧
      if (split host '.').length = 4 then
        host = "127.0.0.1" ∨ octetsOf host.toList = none ∧ resolvHostname host = "127.0.0.1"
      else resolvHostname host ≠ ""

theorem pieceApart {sep : Char} {chars : List Char} : ∀ piece ∈ chars.splitOn sep, sep ∉ piece := by
  induction chars with
  | nil => simp [List.splitOn_nil]
  | cons c rest ih =>
    obtain ⟨first,later,split⟩ := List.exists_cons_of_ne_nil (List.splitOn_ne_nil sep rest)
    rw [split] at ih
    obtain ⟨here,others⟩ := List.forall_mem_cons.mp ih
    rw [List.splitOn_cons_eq_if_modifyHead,split]
    by_cases same : c == sep
    · rw [if_pos same]
      exact List.forall_mem_cons.mpr ⟨List.not_mem_nil,ih⟩
    · rw [if_neg same,List.modifyHead_cons]
      refine List.forall_mem_cons.mpr ⟨?_,others⟩
      rw [List.mem_cons]
      rintro (rfl | among)
      · simp at same
      · exact here among

theorem splitJoined {sep : Char} {chars : List Char} {host port : List Char} (two : chars.splitOn sep = [host,port]) :
    chars = host ++ sep :: port := by
  have joined : [sep].intercalate (chars.splitOn sep) = chars := List.intercalate_splitOn sep
  rw [two] at joined
  simpa [List.intercalate] using joined.symm

theorem splitWhole {sep : Char} {text : String} {pieces : List (List Char)} (whole : text.toList.splitOn sep = pieces)
    (filled : ∀ piece ∈ pieces, piece ≠ []) : split text sep = pieces.map String.ofList := by
  rw [split,whole,List.filter_eq_self.mpr (by simpa using filled)]

theorem splitFilled {sep : Char} {text piece : String} (inside : piece ∈ split text sep) :
    piece ≠ "" ∧ sep ∉ piece.toList := by
  obtain ⟨chars,kept,rfl⟩ := List.mem_map.mp inside
  obtain ⟨among,filled⟩ := List.mem_filter.mp kept
  rw [String.toList_ofList]
  exact ⟨by simpa using filled,pieceApart chars among⟩

theorem digitRange {c : Char} (digit : c.isDigit = true) : '0'.toNat ≤ c.toNat ∧ c.toNat ≤ '9'.toNat := by
  simpa [Char.isDigit,Char.le_def,UInt32.le_iff_toNat_le] using digit

theorem valueCast (chars : List Char) (digits : ∀ c ∈ chars, c.isDigit = true) (n : Nat) :
    chars.foldl (fun (n : Int) c => 10 * n + (c.toNat - '0'.toNat)) n =
      (chars.foldl (fun n c => 10 * n + (c.toNat - '0'.toNat)) n : Nat) := by
  induction chars generalizing n with
  | nil => rfl
  | cons c rest ih =>
    obtain ⟨here,later⟩ := List.forall_mem_cons.mp digits
    have digit := (digitRange here).1
    rw [List.foldl_cons,List.foldl_cons,← ih later]
    have cast : ((10 * n + (c.toNat - '0'.toNat) : Nat) : Int) = 10 * (n : Int) + (c.toNat - '0'.toNat) := by omega
    rw [cast]

/- A number of digits only. -/
theorem stoiPlain {chars : List Char} (filled : chars ≠ []) (digits : chars.all Char.isDigit = true) :
    stoi (String.ofList chars) = if (2147483647 : Int) < value chars then none else some (value chars : Int) := by
  have each : ∀ c ∈ chars, c.isDigit = true := List.all_eq_true.mp digits
  have taken : chars.takeWhile Char.isDigit = chars := List.takeWhile_eq_self_iff.mpr each
  have cast := valueCast chars each 0
  obtain ⟨first,rest,rfl⟩ := List.exists_cons_of_ne_nil filled
  have range := digitRange (each first List.mem_cons_self)
  have kept : (first :: rest).dropWhile (fun c => c = ' ' || '\t' ≤ c && c ≤ '\r') = first :: rest := by
    refine List.dropWhile_cons_of_neg ?_
    have above : ('\r' : Char).toNat < first.toNat := by
      have low := range.1
      simp at low ⊢
      omega
    have space : (' ' : Char).toNat < first.toNat := by
      have low := range.1
      simp at low ⊢
      omega
    have apart : first ≠ ' ' := fun same => Nat.lt_irrefl _ (same ▸ space)
    have behind : ¬ first ≤ '\r' := fun small => Nat.lt_irrefl _ (Nat.lt_of_lt_of_le above small)
    simp [apart,behind]
  have plain : ∀ sign : Char, sign.toNat < '0'.toNat → first ≠ sign := by
    rintro sign low rfl
    exact absurd range.1 (Nat.not_le.mpr low)
  unfold stoi
  rw [String.toList_ofList,kept]
  dsimp only
  split
  · exact absurd (List.cons.inj ‹_›).1 (plain '-' (by decide))
  · exact absurd (List.cons.inj ‹_›).1 (plain '+' (by decide))
  · dsimp only
    rw [taken]
    have positive : ¬ (value (first :: rest) : Int) < -2147483648 := by omega
    have read : (first :: rest).foldl (fun (n : Int) c => 10 * n + (c.toNat - '0'.toNat)) 0 = value (first :: rest) := cast
    simp only [Bool.false_eq_true,if_false,read,positive,filled,false_or]

theorem numeralSome {chars : List Char} {n : Nat} : numeral chars = some n ↔
    (chars ≠ [] ∧ chars.all Char.isDigit = true) ∧ value chars = n := by
  rw [numeral]
  split_ifs with plain
  · rw [and_iff_right plain,Option.some_inj]
  · exact ⟨(fun none => nomatch none),fun both => absurd both.1 plain⟩

theorem portSome {chars : List Char} {n : Nat} : portOf chars = some n ↔
    (chars ≠ [] ∧ chars.all Char.isDigit = true) ∧ value chars = n ∧ 1 ≤ n ∧ n ≤ 65535 := by
  rw [portOf,Option.filter_eq_some_iff,numeralSome]
  simp [and_assoc]

/- A proper port is read as what it is. -/
theorem portRead {port : List Char} {n : Nat} (proper : portOf port = some n) : stoi (String.ofList port) = some (n : Int) := by
  obtain ⟨⟨filled,digits⟩,rfl,_,high⟩ := portSome.mp proper
  rw [stoiPlain filled digits,if_neg (by omega)]

/- And what is read of digits is a proper port if it is in its range. -/
theorem readPort {port : List Char} {v : Int} (read : stoi (String.ofList port) = some v) (low : 1 ≤ v) (high : v ≤ 65535) :
    (∃ n : Nat, portOf port = some n ∧ (n : Int) = v) ↔ port.all Char.isDigit = true := by
  constructor
  · rintro ⟨n,proper,_⟩
    exact (portSome.mp proper).1.2
  · intro digits
    have filled : port ≠ [] := by
      rintro rfl
      cases read
    rw [stoiPlain filled digits] at read
    split_ifs at read
    cases read
    exact ⟨value port,portSome.mpr ⟨⟨filled,digits⟩,rfl,by omega,by omega⟩,rfl⟩

theorem octetsSome {host : List Char} {octets : List Nat} (dotted : octetsOf host = some octets) :
    (split (String.ofList host) '.').length = 4 := by
  unfold octetsOf at dotted
  split_ifs at dotted with four
  have each : ∀ piece ∈ host.splitOn '.', piece ≠ [] := by
    intro piece inside
    obtain ⟨n,_,made⟩ := forallTarget (mapMForall dotted) inside
    exact (numeralSome.mp made).1.1
  have chars : (String.ofList host).toList.splitOn '.' = host.splitOn '.' := by rw [String.toList_ofList]
  have whole := splitWhole chars each
  rw [whole,List.length_map,four]

/- The two parts of a text that names something. -/
theorem namedSome {resolvHostname : String → String} {addrPort : String} {e : String × Int} :
    named resolvHostname addrPort = some e ↔ ∃ host port n, addrPort.toList.splitOn ':' = [host,port] ∧
      addressOf resolvHostname host = some e.1 ∧ portOf port = some n ∧ (n : Int) = e.2 := by
  unfold named
  split
  · rename_i host port two
    simp only [bind,Option.bind_eq_some_iff,pure,Option.some.injEq]
    constructor
    · rintro ⟨addr,known,n,proper,rfl⟩
      exact ⟨host,port,n,two,known,proper,rfl⟩
    · rintro ⟨host',port',n,two',known,proper,same⟩
      rw [two] at two'
      cases two'
      exact ⟨_,known,n,proper,Prod.ext rfl same⟩
  · rename_i other
    refine ⟨(fun none => nomatch none),?_⟩
    rintro ⟨host,port,n,two,_⟩
    exact absurd two (other host port)

/- What is returned where the text falls into two parts. -/
def addrTaken (resolvHostname : String → String) (host : String) : String :=
  if (split host '.').length = 4 ∨ resolvHostname host = "" then "127.0.0.1" else resolvHostname host

theorem parsedTwo {resolvHostname : String → String} {addrPort host port : String} (two : split addrPort ':' = [host,port]) :
    parseAddrPort resolvHostname addrPort = (addrTaken resolvHostname host,(stoi port).getD (-1)) := by
  rw [parseAddrPort,two]
  rfl

/- A text that names something falls into two parts. -/
theorem namedTwo {resolvHostname : String → String} {addrPort : String} {e : String × Int}
    (names : named resolvHostname addrPort = some e) : ∃ host port : String, ∃ n : Nat, split addrPort ':' = [host,port] ∧
      addrPort.toList.splitOn ':' = [host.toList,port.toList] ∧ addressOf resolvHostname host.toList = some e.1 ∧
      portOf port.toList = some n ∧ (n : Int) = e.2 ∧ stoi port = some e.2 := by
  obtain ⟨host,port,n,two,known,proper,same⟩ := namedSome.mp names
  have filled : host ≠ [] := by
    rintro rfl
    cases known
  have portFilled := (portSome.mp proper).1.1
  refine ⟨String.ofList host,String.ofList port,n,?_,?_,?_,?_,same,same ▸ portRead proper⟩
  · exact splitWhole two (by simp [filled,portFilled])
  · rw [String.toList_ofList,String.toList_ofList,two]
  · rw [String.toList_ofList,known]
  · rw [String.toList_ofList,proper]

theorem localOctets : octetsOf "127.0.0.1".toList = some [127,0,0,1] := by decide

/- The address that is taken, against the one that is named. -/
theorem addressKept {resolvHostname : String → String} {host : String} (filled : host ≠ "") :
    addressOf resolvHostname host.toList = some (addrTaken resolvHostname host) ↔
      if (split host '.').length = 4 then
        host = "127.0.0.1" ∨ octetsOf host.toList = none ∧ resolvHostname host = "127.0.0.1"
      else resolvHostname host ≠ "" := by
  have known : host.toList ≠ [] := by simpa using filled
  by_cases four : (split host '.').length = 4
  · rw [if_pos four,addrTaken,if_pos (.inl four),addressOf]
    cases dotted : octetsOf host.toList with
    | none =>
      have other : host ≠ "127.0.0.1" := by
        rintro rfl
        rw [localOctets] at dotted
        cases dotted
      simp only [known,String.ofList_toList,false_or,other,true_and]
      by_cases unknown : resolvHostname host = ""
      · simp [unknown]
      · rw [if_neg unknown,Option.some_inj]
    | some octets =>
      have one : octets.all (· ≤ 255) = true ∨ host ≠ "127.0.0.1" := by
        by_cases same : host = "127.0.0.1"
        · rw [same,localOctets] at dotted
          cases dotted
          exact .inl rfl
        · exact .inr same
      rw [String.ofList_toList]
      rcases one with small | other
      · simp [small]
      · simp [other]
  · rw [if_neg four]
    have undotted : octetsOf host.toList = none := by
      cases dotted : octetsOf host.toList with
      | none => rfl
      | some octets =>
        have pieces := octetsSome dotted
        rw [String.ofList_toList] at pieces
        exact absurd pieces four
    rw [addressOf,undotted,addrTaken]
    by_cases unknown : resolvHostname host = ""
    · simp [unknown]
    · simp [known,unknown,four]

/- Of a text whose second part is read as a number that is not negative. -/
theorem namedKept {resolvHostname : String → String} {addrPort host port : String} {v : Int}
    (two : split addrPort ':' = [host,port]) (read : stoi port = some v) (low : 0 ≤ v) :
    Kept resolvHostname addrPort ↔ named resolvHostname addrPort = some (addrTaken resolvHostname host,v) := by
  obtain ⟨hostFilled,hostApart⟩ := splitFilled (two ▸ List.mem_cons_self : host ∈ split addrPort ':')
  obtain ⟨_,portApart⟩ := splitFilled (two ▸ List.mem_cons_of_mem _ List.mem_cons_self : port ∈ split addrPort ':')
  have readChars : stoi (String.ofList port.toList) = some v := by rwa [String.ofList_toList]
  constructor
  · intro kept
    obtain ⟨joined,digits,above,below,address⟩ := kept host port v two read low
    obtain ⟨n,proper,same⟩ := (readPort readChars above below).mpr digits
    refine namedSome.mpr ⟨host.toList,port.toList,n,?_,(addressKept hostFilled).mpr address,proper,same⟩
    have chars : addrPort.toList = host.toList ++ ':' :: port.toList := by
      rw [joined]
      simp
    rw [chars,List.splitOn_append_cons_self_of_not_mem hostApart,List.splitOn_eq_singleton portApart]
  · intro names host' port' v' two' read' _
    rw [two] at two'
    cases two'
    rw [read] at read'
    cases read'
    obtain ⟨host',port',n,two',whole,address,proper,same,_⟩ := namedTwo names
    rw [two] at two'
    cases two'
    obtain ⟨⟨_,digits⟩,_,above,below⟩ := portSome.mp proper
    dsimp only at same
    refine ⟨?_,digits,by omega,by omega,(addressKept hostFilled).mp address⟩
    apply String.toList_inj.mp
    rw [splitJoined whole]
    simp

/- The result, for every text. -/
theorem resultIff (resolvHostname : String → String) (addrPort : String) :
    (match named resolvHostname addrPort with
      | some ipAddrPort => parseAddrPort resolvHostname addrPort = ipAddrPort
      | none => (parseAddrPort resolvHostname addrPort).2 < 0) ↔ Kept resolvHostname addrPort := by
  by_cases read : ∃ host port v, split addrPort ':' = [host,port] ∧ stoi port = some v ∧ 0 ≤ v
  · obtain ⟨host,port,v,two,read,low⟩ := read
    rw [namedKept two read low,parsedTwo two,read,Option.getD_some]
    cases named resolvHostname addrPort with
    | none => exact ⟨fun negative => absurd negative (not_lt.mpr low),(fun some => nomatch some)⟩
    | some e => rw [Option.some_inj,eq_comm]
  · have kept : Kept resolvHostname addrPort := fun host port v two number low => absurd ⟨host,port,v,two,number,low⟩ read
    refine iff_of_true ?_ kept
    cases names : named resolvHostname addrPort with
    | some e =>
      obtain ⟨host,port,n,two,_,_,proper,same,number⟩ := namedTwo names
      exact absurd ⟨host,port,e.2,two,number,same ▸ Int.natCast_nonneg n⟩ read
    | none =>
      change (parseAddrPort resolvHostname addrPort).2 < 0
      unfold parseAddrPort
      split
      · rename_i host port two
        cases number : stoi port with
        | none => exact (by decide : (-1 : Int) < 0)
        | some v => exact not_le.mp fun low => read ⟨host,port,v,two,number,low⟩
      · exact (by decide : (-1 : Int) < 0)

/- What a text does not name is not used: neither for a socket nor in a request. -/
theorem namesOfResult {resolvHostname : String → String} {addrPort : String}
    (result : match named resolvHostname addrPort with
      | some ipAddrPort => parseAddrPort resolvHostname addrPort = ipAddrPort
      | none => (parseAddrPort resolvHostname addrPort).2 < 0) : Names resolvHostname addrPort where
  result := result
  socket := by
    intro ep os job channel mode chOpts s
    cases names : named resolvHostname addrPort with
    | some e =>
      rw [names] at result
      exact .inr (congrArg some result.symm)
    | none =>
      rw [names] at result
      left
      unfold createChannelSocket
      split_ifs <;> rfl
  opens := by
    rintro os channel clientOpts chOpts rfl socket rfl
    have sent : ((ChannelEnds.openRequest os channel clientOpts chOpts).ipaddr,
        (ChannelEnds.openRequest os channel clientOpts chOpts).port) =
        parseAddrPort os.resolvHostname clientOpts.content := by
      simp only [ChannelEnds.openRequest,socket]
    dsimp only
    rw [sent]
    cases names : named os.resolvHostname clientOpts.content with
    | some e =>
      rw [names] at result
      exact .inr (congrArg some result.symm)
    | none =>
      rw [names] at result
      have port := congrArg Prod.snd sent
      exact .inl (port.trans_lt result)

/- The text names what is returned, and nothing else is used, exactly when nothing was left out of it,
its port is written as one, and its address is the one that is taken. -/
theorem namesIff (resolvHostname : String → String) (addrPort : String) :
    Names resolvHostname addrPort ↔ Kept resolvHostname addrPort :=
  ⟨fun names => (resultIff resolvHostname addrPort).mp names.result,
    fun kept => namesOfResult ((resultIff resolvHostname addrPort).mpr kept)⟩

/- An address in dots is replaced. -/
theorem elsewhereTaken : ¬ Names (fun _ => "") "8.8.8.8:53" := by
  intro names
  have result := names.result
  have text : named (fun _ => "") "8.8.8.8:53" = some ("8.8.8.8",53) := by decide
  rw [text] at result
  exact absurd result (by decide)

end Ltsm.SocketAddresses
