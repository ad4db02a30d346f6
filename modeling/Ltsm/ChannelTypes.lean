import Mathlib.Data.List.Basic

/-! The vocabulary of the channels: types, modes and speeds with their names on
the wire, the urls of a job and the addresses they hold. -/
namespace Ltsm.Channel

inductive ConnectorType
  | unknown | unix | socket | file | command | fuse | audio | pcsc | pkcs11
  deriving DecidableEq, Repr

inductive ConnectorMode
  | unknown | readOnly | readWrite | writeOnly
  deriving DecidableEq, Repr

inductive Speed
  | verySlow | slow | medium | fast | ultraFast | ultra5
  deriving DecidableEq, Repr

def typeString : ConnectorType → String
  | .unix => "unix"
  | .file => "file"
  | .socket => "socket"
  | .command => "command"
  | .fuse => "fuse"
  | .audio => "audio"
  | .pcsc => "pcsc"
  | .pkcs11 => "pkcs11"
  | .unknown => "unknown"

def modeString : ConnectorMode → String
  | .readWrite => "rw"
  | .readOnly => "ro"
  | .writeOnly => "wo"
  | .unknown => "unknown"

def speedString : Speed → String
  | .slow => "slow"
  | .medium => "medium"
  | .fast => "fast"
  | .ultraFast => "ultra"
  | .ultra5 => "ultra5"
  | .verySlow => "very"

def connectorType (str : String) : ConnectorType :=
  ([.unix,.socket,.file,.command,.fuse,.audio,.pcsc,.pkcs11].find? fun type => str = typeString type).getD
    .unknown

def connectorMode (str : String) : ConnectorMode :=
  ([.readOnly,.readWrite,.writeOnly].find? fun mode => str = modeString mode).getD .unknown

def connectorSpeed (str : String) : Speed :=
  ([.verySlow,.slow,.medium,.fast,.ultraFast,.ultra5].find? fun speed => str = speedString speed).getD
    .verySlow

theorem connectorTypeString (type : ConnectorType) : connectorType (typeString type) = type := by
  cases type <;> rfl

theorem connectorModeString (mode : ConnectorMode) : connectorMode (modeString mode) = mode := by
  cases mode <;> rfl

theorem connectorSpeedString (speed : Speed) : connectorSpeed (speedString speed) = speed := by
  cases speed <;> rfl

def createUrl (type : ConnectorType) (body : String) : String := typeString type ++ "://" ++ body

def urlSchemes : List (String × ConnectorType) :=
  [("file://",.file),("unix://",.unix),("sock://",.socket),("socket://",.socket),("cmd://",.command),
    ("command://",.command),("fuse://",.fuse),("audio://",.audio),("pcsc://",.pcsc),("pkcs11://",.pkcs11)]

def afterScheme (url : String) (scheme : String × ConnectorType) : Option (ConnectorType × String) :=
  if scheme.1.toList.isPrefixOf url.toList then
    some (scheme.2,String.ofList (url.toList.drop scheme.1.toList.length))
  else none

def parseUrl (url : String) : ConnectorType × String :=
  (urlSchemes.findSome? (afterScheme url)).getD (.unknown,url)

theorem parseCreateUrl (type : ConnectorType) (body : String) (known : type ≠ .unknown) :
    parseUrl (createUrl type body) = (type,body) := by
  cases type <;> first | contradiction | simp [parseUrl,createUrl,typeString,urlSchemes,afterScheme,List.isPrefixOf]

structure UrlMode where
  type : ConnectorType
  content : String
  mode : ConnectorMode
  url : String
  deriving DecidableEq, Repr

def UrlMode.ofParts (type : ConnectorType) (body : String) (mode : ConnectorMode) : UrlMode :=
  ⟨type,body,mode,createUrl type body⟩

structure Opts where
  speed : Speed := .medium
  flags : UInt32 := 0
  deriving DecidableEq, Repr

def allowLoginSession : UInt32 := 2

def Opts.allowsLogin (opts : Opts) : Bool := opts.flags &&& allowLoginSession ≠ 0

structure Planned where
  serverOpts : UrlMode
  clientOpts : UrlMode
  chOpts : Opts
  serverFd : Int := -1
  channel : UInt8 := 0
  deriving DecidableEq, Repr

/- Tools::split, which drops empty pieces. -/
def split (str : String) (sep : Char) : List String :=
  ((str.toList.splitOn sep).filter (· ≠ [])).map String.ofList

/- std::stoi: blanks, a sign, and digits up to the first other character. -/
def stoi (str : String) : Option Int :=
  let chars := str.toList.dropWhile fun c => c = ' ' || '\t' ≤ c && c ≤ '\r'
  let (negative,digits) := match chars with
    | '-' :: rest => (true,rest.takeWhile Char.isDigit)
    | '+' :: rest => (false,rest.takeWhile Char.isDigit)
    | rest => (false,rest.takeWhile Char.isDigit)
  let magnitude : Int := digits.foldl (fun n c => 10 * n + (c.toNat - '0'.toNat)) 0
  let value := if negative then -magnitude else magnitude
  if digits = [] ∨ value < -2147483648 ∨ 2147483647 < value then none else some value

/- A dotted address is checked, but the address stays the default one. -/
def parseAddrPort (resolvHostname : String → String) (addrPort : String) : String × Int :=
  match split addrPort ':' with
  | [host,port] =>
    let addr := if (split host '.').length = 4 ∨ resolvHostname host = "" then "127.0.0.1"
      else resolvHostname host
    (addr,(stoi port).getD (-1))
  | _ => ("127.0.0.1",-1)

end Ltsm.Channel
