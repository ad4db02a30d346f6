import Ltsm.JsonStreams
import Ltsm.ChannelTypes

/-! The messages of the system channel: JSON texts, written by streams. -/
namespace Ltsm.SystemMessages
open Library JsonTokens JsonStreams Channel

/- A string of the source as its bytes. -/
def chars (str : String) : Bytes := str.toList.flatMap String.utf8EncodeChar

/- What the messages ask the file system. -/
structure Files where
  isRegular : Bytes → Bool
  isReadable : Bytes → Bool
  fileSize : Bytes → UInt64

inductive SystemMessage
  | clientVariables (vars env : Bytes) (layouts : List Bytes) (group : Bytes)
  | cursorFailed (cursorId : Int32)
  | keyboardChange (names : List Bytes) (group : Int32)
  | transferFiles (files : List Bytes)
  | channelOpen (channel : UInt8) (clientOpts : UrlMode) (chOpts : Opts)
  | channelError (channel : UInt8) (code : Int32) (err : Bytes)
  | channelClose (channel : UInt8)
  | channelConnected (channel : UInt8) (flags : Int32) (noerror : Bool)
  | loginSuccess
  | loginFailure (msg : Bytes)

/- An object stream with these pushes, flushed. -/
def objectText (pushes : List (String × Pushed)) : Bytes :=
  JsonObjectStream.flush (pushes.foldl (fun s field => JsonObjectStream.push s (chars field.1) field.2)
    JsonObjectStream.start)

/- An array stream with these pushes, flushed. -/
def arrayText (pushes : List Pushed) : Bytes :=
  JsonArrayStream.flush (pushes.foldl JsonArrayStream.push JsonArrayStream.start)

def fileText (files : Files) (fname : Bytes) : Bytes :=
  objectText [("file",.string fname),("size",.integer (files.fileSize fname).toNat)]

/- The files that are sent, those of no bytes left out. -/
def listed (files : Files) (names : List Bytes) : List Bytes :=
  (names.filter fun file => files.isRegular file && files.isReadable file)

def sized (files : Files) (names : List Bytes) : List Bytes :=
  (listed files names).filter fun fname => files.fileSize fname ≠ 0

/- The content goes under a key of the type. -/
def contentPushes (resolvHostname : String → String) (clientOpts : UrlMode) : List (String × Pushed) :=
  match clientOpts.type with
  | .socket =>
    let (ipaddr,port) := parseAddrPort resolvHostname clientOpts.content
    [("port",.integer port),("ipaddr",.string (chars ipaddr))]
  | .command => [("runcmd",.string (chars clientOpts.content))]
  | .fuse => [("fuse",.string (chars clientOpts.content))]
  | .audio => [("audio",.string (chars clientOpts.content))]
  | .pcsc => [("pcsc",.string (chars clientOpts.content))]
  | .pkcs11 => [("pkcs11",.string (chars clientOpts.content))]
  | _ => [("path",.string (chars clientOpts.content))]

/- The name of a command and what is pushed behind it, or nothing where no message is sent. -/
def pushes (files : Files) (resolvHostname : String → String) : SystemMessage → Option (List (String × Pushed))
  | .clientVariables vars env layouts group =>
    some [("cmd",.string (chars "ClientVariables")),("options",.plain vars),("environments",.plain env),
      ("keyboard",.plain (objectText [("layouts",.plain (arrayText (layouts.map .string))),("current",.string group)]))]
  | .cursorFailed cursorId => some [("cmd",.string (chars "CursorFailed")),("cursor",.integer cursorId.toInt)]
  | .keyboardChange names group =>
    if 0 ≤ group.toInt ∧ group.toInt < names.length then
      some [("cmd",.string (chars "KeyboardChange")),("layout",.string (names.getD group.toInt.toNat [])),
        ("group",.integer group.toInt),("names",.plain (arrayText (names.map .string)))]
    else none
  | .transferFiles names =>
    if listed files names = [] then none
    else some [("cmd",.string (chars "TransferFiles")),
      ("files",.plain (arrayText ((sized files names).map fun fname => .plain (fileText files fname))))]
  | .channelOpen channel clientOpts chOpts =>
    some ([("cmd",.string (chars "ChannelOpen")),("id",.integer channel.toNat),
      ("type",.string (chars (typeString clientOpts.type))),("mode",.string (chars (modeString clientOpts.mode))),
      ("speed",.string (chars (speedString chOpts.speed))),("flags",.integer chOpts.flags.toInt32.toInt)] ++
        contentPushes resolvHostname clientOpts)
  | .channelError channel code err =>
    some [("cmd",.string (chars "ChannelError")),("id",.integer channel.toNat),("code",.integer code.toInt),
      ("error",.string err)]
  | .channelClose channel => some [("cmd",.string (chars "ChannelClose")),("id",.integer channel.toNat)]
  | .channelConnected channel flags noerror =>
    some [("cmd",.string (chars "ChannelConnected")),("flags",.integer flags.toInt),("error",.boolean (! noerror)),
      ("id",.integer channel.toNat)]
  | .loginSuccess => some [("cmd",.string (chars "LoginSuccess")),("action",.boolean true)]
  | .loginFailure msg =>
    some [("cmd",.string (chars "LoginSuccess")),("action",.boolean false),("error",.string msg)]

def message (files : Files) (resolvHostname : String → String) (msg : SystemMessage) : Option Bytes :=
  (pushes files resolvHostname msg).map objectText

/- A string between quotes, with a backslash before each character that needs one. -/
def quotedSize (val : Bytes) : Nat := 2 + val.length + val.countP fun c => c = quote ∨ c = backslash

/- Brackets around items of these sizes, with a comma between two. -/
def listSize (sizes : List Nat) : Nat := if sizes = [] then 2 else 1 + (sizes.map (1 + ·)).sum

/- The numbers of the characters, with a comma before each. -/
def charsSize (plain : Bytes) : Nat := (plain.map fun c => 1 + (decimal (charInt c)).length).sum

def itemSize : Pushed → Nat
  | .plain plain => charsSize plain - 1
  | val => val.text.length

def fieldSize (field : String × Pushed) : Nat := quotedSize (chars field.1) + 1 + field.2.text.length

theorem quotedLength (val : Bytes) : (quoted val).length = quotedSize val := by
  have escaped : (val.flatMap escapedByte).length = val.length + val.countP fun c => c = quote ∨ c = backslash := by
    induction val with
    | nil => rfl
    | cons c val ih =>
      rw [List.flatMap_cons,List.length_append,ih,List.length_cons,List.countP_cons]
      by_cases special : c = quote ∨ c = backslash
      · simp only [escapedByte,special,if_true,List.length_cons,List.length_nil,decide_true]
        omega
      · simp only [escapedByte,special,if_false,List.length_cons,List.length_nil,decide_false,Bool.false_eq_true]
        omega
  simp only [quoted,List.length_cons,List.length_append,List.length_nil,escaped,quotedSize]
  omega

/- Behind the first push each one starts with a comma. -/
theorem fieldsLength (pushes : List (String × Pushed)) (s : Stream) (started : s.comma = true) :
    (pushes.foldl (fun s field => JsonObjectStream.push s (chars field.1) field.2) s).os.length =
      s.os.length + ((pushes.map fieldSize).map (1 + ·)).sum := by
  induction pushes generalizing s with
  | nil => rfl
  | cons field pushes ih =>
    rw [List.foldl_cons,ih _ rfl]
    simp only [JsonObjectStream.push,separator,started,if_true,List.length_append,List.length_cons,List.length_nil,
      quotedLength,List.map_cons,List.sum_cons,fieldSize]
    omega

theorem objectLength (pushes : List (String × Pushed)) :
    (objectText pushes).length = listSize (pushes.map fieldSize) := by
  cases pushes with
  | nil => rfl
  | cons field pushes =>
    rw [objectText,JsonObjectStream.flush,List.length_append,List.foldl_cons,fieldsLength _ _ rfl]
    simp only [JsonObjectStream.push,JsonObjectStream.start,separator,Bool.false_eq_true,if_false,List.length_append,
      List.length_cons,List.length_nil,quotedLength,List.map_cons,List.sum_cons,fieldSize,listSize]
    rw [if_neg (List.cons_ne_nil _ _)]
    omega

theorem scalarsLength (plain : Bytes) (s : Stream) (started : s.comma = true) :
    (plain.foldl (fun s c => JsonArrayStream.pushScalar s (decimal (charInt c))) s).os.length =
      s.os.length + charsSize plain := by
  induction plain generalizing s with
  | nil => rfl
  | cons c plain ih =>
    rw [List.foldl_cons,ih _ rfl]
    simp only [JsonArrayStream.pushScalar,separator,started,if_true,List.length_append,List.length_cons,List.length_nil,
      charsSize,List.map_cons,List.sum_cons]
    omega

theorem pushLength (s : Stream) (val : Pushed) :
    (JsonArrayStream.push s val).comma = true ∧
      (JsonArrayStream.push s val).os.length = s.os.length + (separator s).length + itemSize val := by
  cases val with
  | plain plain =>
    refine ⟨rfl,?_⟩
    cases plain with
    | nil => simp [JsonArrayStream.push,itemSize,charsSize]
    | cons c plain =>
      simp only [JsonArrayStream.push,List.foldl_cons]
      rw [scalarsLength _ _ rfl]
      simp only [JsonArrayStream.pushScalar,separator,Bool.false_eq_true,if_false,List.length_append,List.length_nil,
        itemSize,charsSize,List.map_cons,List.sum_cons]
      omega
  | _ => exact ⟨rfl,by simp only [JsonArrayStream.push,JsonArrayStream.pushScalar,List.length_append,itemSize]⟩

theorem itemsLength (pushes : List Pushed) (s : Stream) (started : s.comma = true) :
    (pushes.foldl JsonArrayStream.push s).os.length = s.os.length + ((pushes.map itemSize).map (1 + ·)).sum := by
  induction pushes generalizing s with
  | nil => rfl
  | cons val pushes ih =>
    obtain ⟨comma,length⟩ := pushLength s val
    rw [List.foldl_cons,ih _ comma,length]
    simp only [separator,started,if_true,List.length_cons,List.length_nil,List.map_cons,List.sum_cons]
    omega

theorem arrayLength (pushes : List Pushed) : (arrayText pushes).length = listSize (pushes.map itemSize) := by
  cases pushes with
  | nil => rfl
  | cons val pushes =>
    obtain ⟨comma,length⟩ := pushLength JsonArrayStream.start val
    rw [arrayText,JsonArrayStream.flush,List.length_append,List.foldl_cons,itemsLength _ _ comma,length]
    simp only [JsonArrayStream.start,separator,Bool.false_eq_true,if_false,List.length_cons,List.length_nil,List.map_cons,
      List.sum_cons,listSize]
    rw [if_neg (List.cons_ne_nil _ _)]
    omega

theorem digitsLength {n k : Nat} (small : n < 10 ^ (k + 1)) : (decimalDigits n).length ≤ k + 1 := by
  induction k generalizing n with
  | zero =>
    rw [decimalDigits,if_pos (by simpa using small)]
    simp
  | succ k ih =>
    rw [decimalDigits]
    split
    · simp
    · have less : n / 10 < 10 ^ (k + 1) := Nat.div_lt_of_lt_mul (by rwa [← Nat.pow_succ'])
      have rest := ih less
      rw [List.length_append,List.length_singleton]
      omega

/- An int has ten digits at most, and a sign. -/
theorem decimalLength {val : Int} (small : val.natAbs < 10 ^ 10) : (decimal val).length ≤ 11 := by
  have digits := digitsLength (k := 9) small
  rw [decimal]
  split
  · rw [List.length_cons]
    omega
  · omega

/- What goes into a frame: the options and the layouts, the names of the files written as the
numbers of their characters, the content of a channel, the text of an error. -/
def Fits (files : Files) (resolvHostname : String → String) : SystemMessage → Prop
  | .clientVariables vars env layouts group =>
    87 + (vars.length + env.length + listSize (layouts.map quotedSize) + quotedSize group) ≤ 65535
  | .keyboardChange names group => 0 ≤ group.toInt ∧ group.toInt < names.length →
    52 + (quotedSize (names.getD group.toInt.toNat []) + (decimal group.toInt).length + listSize (names.map quotedSize)) ≤
      65535
  | .transferFiles names => listed files names ≠ [] →
    32 + listSize ((sized files names).map fun fname => charsSize (fileText files fname) - 1) ≤ 65535
  | .channelOpen channel clientOpts chOpts =>
    61 + ((decimal channel.toNat).length + quotedSize (chars (typeString clientOpts.type)) +
      quotedSize (chars (modeString clientOpts.mode)) + quotedSize (chars (speedString chOpts.speed)) +
      (decimal chOpts.flags.toInt32.toInt).length +
      (((contentPushes resolvHostname clientOpts).map fieldSize).map (1 + ·)).sum) ≤ 65535
  | .channelError channel code err =>
    45 + ((decimal channel.toNat).length + (decimal code.toInt).length + quotedSize err) ≤ 65535
  | .loginFailure msg => 46 + quotedSize msg ≤ 65535
  | _ => True

/- Strings of the source that need no backslash. -/
theorem keySizes : ["cmd","options","environments","keyboard","layouts","current","cursor","layout","group","names",
      "files","id","type","mode","speed","flags","code","error","ClientVariables","CursorFailed","KeyboardChange",
      "TransferFiles","ChannelOpen","ChannelError","ChannelClose","ChannelConnected","action","LoginSuccess"].map (fun key => quotedSize (chars key)) =
    [5,9,14,10,9,9,8,8,7,7,7,4,6,6,7,7,6,7,17,14,16,15,13,14,14,18,8,14] := by decide

theorem listSizeCons (size : Nat) (rest : List Nat) : listSize (size :: rest) = 2 + size + (rest.map (1 + ·)).sum := by
  rw [listSize,if_neg (List.cons_ne_nil _ _),List.map_cons,List.sum_cons]
  omega

theorem namesLength (names : List Bytes) : (arrayText (names.map .string)).length = listSize (names.map quotedSize) := by
  rw [arrayLength,List.map_map]
  exact congrArg (fun sizes => listSize sizes) (List.map_congr_left fun name _ => quotedLength name)

theorem filesLength (files : Files) (names : List Bytes) :
    (arrayText (names.map fun fname => .plain (fileText files fname))).length =
      listSize (names.map fun fname => charsSize (fileText files fname) - 1) := by
  rw [arrayLength,List.map_map]
  rfl

theorem int32Small (val : Int32) : val.toInt.natAbs < 10 ^ 10 := by
  have low := val.le_toInt
  have high := val.toInt_lt
  omega

theorem messageFitsIff (files : Files) (resolvHostname : String → String) (msg : SystemMessage) :
    (∀ text ∈ message files resolvHostname msg, text.length ≤ 65535) ↔ Fits files resolvHostname msg := by
  have keys := keySizes
  simp only [List.map_cons,List.map_nil,List.cons.injEq,and_true] at keys
  obtain ⟨cmd,options,environments,keyboard,layouts,current,cursor,layout,group,names,filesKey,id,type,mode,speed,flags,
    code,error,clientVariables,cursorFailed,keyboardChange,transferFiles,channelOpen,channelError,channelClose,
    channelConnected,action,loginSuccess⟩ := keys
  cases msg with
  | clientVariables vars env names current =>
    simp only [message,pushes,Fits,Option.map_some,Option.mem_some_iff,forall_eq',objectLength,List.map_cons,List.map_nil,
      listSizeCons,List.sum_cons,List.sum_nil,fieldSize,Pushed.text,quotedLength,namesLength]
    omega
  | cursorFailed cursorId =>
    have digits := decimalLength (int32Small cursorId)
    simp only [message,pushes,Fits,Option.map_some,Option.mem_some_iff,forall_eq',objectLength,List.map_cons,List.map_nil,
      listSizeCons,List.sum_cons,List.sum_nil,fieldSize,Pushed.text,quotedLength,iff_true]
    omega
  | keyboardChange names group =>
    by_cases inside : 0 ≤ group.toInt ∧ group.toInt < names.length
    · simp only [message,pushes,Fits,if_pos inside,Option.map_some,Option.mem_some_iff,forall_eq',objectLength,List.map_cons,
        List.map_nil,listSizeCons,List.sum_cons,List.sum_nil,fieldSize,Pushed.text,quotedLength,namesLength,
        forall_prop_of_true inside]
      omega
    · simp [message,pushes,Fits,inside]
  | transferFiles names =>
    by_cases empty : listed files names = []
    · simp [message,pushes,Fits,empty]
    · simp only [message,pushes,Fits,if_neg empty,Option.map_some,Option.mem_some_iff,forall_eq',objectLength,List.map_cons,
        List.map_nil,listSizeCons,List.sum_cons,List.sum_nil,fieldSize,Pushed.text,quotedLength,filesLength,
        forall_prop_of_true empty]
      omega
  | channelOpen channel clientOpts chOpts =>
    simp only [message,pushes,Fits,Option.map_some,Option.mem_some_iff,forall_eq',objectLength,List.cons_append,List.nil_append,
      List.map_cons,listSizeCons,List.sum_cons,fieldSize,Pushed.text,quotedLength]
    omega
  | channelError channel errorCode err =>
    simp only [message,pushes,Fits,Option.map_some,Option.mem_some_iff,forall_eq',objectLength,List.map_cons,List.map_nil,
      listSizeCons,List.sum_cons,List.sum_nil,fieldSize,Pushed.text,quotedLength]
    omega
  | channelClose channel =>
    have small := channel.toNat_lt
    have digits := @decimalLength channel.toNat (by omega)
    simp only [message,pushes,Fits,Option.map_some,Option.mem_some_iff,forall_eq',objectLength,List.map_cons,List.map_nil,
      listSizeCons,List.sum_cons,List.sum_nil,fieldSize,Pushed.text,quotedLength,iff_true]
    omega
  | channelConnected channel connectFlags noerror =>
    have small := channel.toNat_lt
    have digits := @decimalLength channel.toNat (by omega)
    have flagDigits := decimalLength (int32Small connectFlags)
    have word : (if (! noerror) = true then trueText else falseText).length ≤ 5 := by cases noerror <;> decide
    simp only [message,pushes,Fits,Option.map_some,Option.mem_some_iff,forall_eq',objectLength,List.map_cons,List.map_nil,
      listSizeCons,List.sum_cons,List.sum_nil,fieldSize,Pushed.text,quotedLength,iff_true]
    omega
  | loginSuccess =>
    have word : trueText.length = 4 := rfl
    simp only [message,pushes,Fits,Option.map_some,Option.mem_some_iff,forall_eq',objectLength,List.map_cons,List.map_nil,
      listSizeCons,List.sum_cons,List.sum_nil,fieldSize,Pushed.text,quotedLength,if_true,iff_true]
    omega
  | loginFailure msg =>
    have word : falseText.length = 5 := rfl
    simp only [message,pushes,Fits,Option.map_some,Option.mem_some_iff,forall_eq',objectLength,List.map_cons,List.map_nil,
      listSizeCons,List.sum_cons,List.sum_nil,fieldSize,Pushed.text,quotedLength,Bool.false_eq_true,if_false]
    omega

end Ltsm.SystemMessages
