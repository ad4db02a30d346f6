import Mathlib.Data.List.Infix
import Mathlib.Data.List.TakeWhile
import Ltsm.ServerSecurity
import Ltsm.VncChallenge

/-! The passwd file of the VNC security type. It is read by lines while the stream is good,
and only the read that meets the end of the file makes it bad: what stands behind the last
line end is a password as well, also when nothing stands there. -/
namespace Ltsm.VncPasswordFile
open Library ServerSecurity VncChallenge

def newline : UInt8 := 10

structure Ifstream where
  rest : Bytes
  good : Bool
  deriving DecidableEq, Repr

def Ifstream.opened : Option Bytes → Ifstream
  | some content => ⟨content,true⟩
  | none => ⟨[],false⟩

def getline (ifs : Ifstream) : Bytes × Ifstream :=
  match ifs.rest.dropWhile (· ≠ newline) with
  | [] => (ifs.rest,⟨[],false⟩)
  | _ :: rest => (ifs.rest.takeWhile (· ≠ newline),⟨rest,ifs.good⟩)

theorem getlineLast {ifs : Ifstream} (absent : newline ∉ ifs.rest) : getline ifs = (ifs.rest,⟨[],false⟩) := by
  have none : ifs.rest.dropWhile (· ≠ newline) = [] :=
    List.dropWhile_eq_nil_iff.mpr fun x inside => by simpa using fun same : x = newline => absent (same ▸ inside)
  rw [getline,none]

theorem getlineFirst {line later : Bytes} (absent : newline ∉ line) (good : Bool) :
    getline ⟨line ++ newline :: later,good⟩ = (line,⟨later,good⟩) := by
  have before : ∀ x ∈ line, decide (x ≠ newline) = true := fun x inside => by
    simpa using fun same : x = newline => absent (same ▸ inside)
  rw [getline,List.dropWhile_append_of_pos before,List.takeWhile_append_of_pos before]
  simp

theorem lineCases (content : Bytes) :
    newline ∉ content ∨ ∃ line later, newline ∉ line ∧ content = line ++ newline :: later := by
  by_cases inside : newline ∈ content
  · obtain ⟨line,later,whole,absent⟩ := List.eq_append_cons_of_mem inside
    exact .inr ⟨line,later,absent,whole⟩
  · exact .inl inside

theorem getlineShrinks {ifs : Ifstream} (good : ifs.good = true) :
    (getline ifs).2.rest.length + (getline ifs).2.good.toNat < ifs.rest.length + ifs.good.toNat := by
  obtain ⟨rest,_⟩ := ifs
  cases good
  rcases lineCases rest with absent | ⟨line,later,absent,rfl⟩
  · rw [getlineLast absent]
    simp
  · rw [getlineFirst absent,List.length_append,List.length_cons]
    dsimp only
    omega

/- The passwords of the loop, in the order it tries them. -/
def passwords (ifs : Ifstream) : List Bytes :=
  if ifs.good then (getline ifs).1 :: passwords (getline ifs).2 else []
termination_by ifs.rest.length + ifs.good.toNat
decreasing_by exact getlineShrinks ‹_›

theorem passwordsSplit (content : Bytes) : passwords ⟨content,true⟩ = content.splitOn newline := by
  induction size : content.length using Nat.strong_induction_on generalizing content with
  | _ n ih =>
    rw [passwords,if_pos rfl]
    rcases lineCases content with absent | ⟨line,later,absent,rfl⟩
    · rw [getlineLast absent,passwords,if_neg (by simp)]
      exact (List.splitOnP_eq_singleton fun x inside => by simpa using fun same : x = newline => absent (same ▸ inside)).symm
    · rw [getlineFirst absent]
      dsimp only
      rw [ih later.length (by rw [← size,List.length_append,List.length_cons]; omega) later rfl]
      exact (List.splitOnP_append_cons_of_forall_mem
        (fun x inside => by simpa using fun same : x = newline => absent (same ▸ inside)) newline (by simp) later).symm

/- No line of the file is empty, and nothing is missing behind its last line end. -/
structure NoEmptyLine (content : Bytes) : Prop where
  filled : content ≠ []
  first : content.head? ≠ newline
  last : content.getLast? ≠ newline
  between : ¬ [newline,newline] <:+: content
instance (content : Bytes) : Decidable (NoEmptyLine content) :=
  decidable_of_iff (content ≠ [] ∧ content.head? ≠ newline ∧ content.getLast? ≠ newline ∧
    ¬ [newline,newline] <:+: content) ⟨fun ⟨a,b,c,d⟩ => ⟨a,b,c,d⟩,fun ⟨a,b,c,d⟩ => ⟨a,b,c,d⟩⟩

theorem splitHead (content : Bytes) :
    ∃ line rest, content.splitOn newline = line :: rest ∧
      (line = [] ↔ content = [] ∨ content.head? = some newline) := by
  rcases lineCases content with absent | ⟨line,later,absent,rfl⟩
  · refine ⟨content,[],?_,?_⟩
    · exact List.splitOnP_eq_singleton fun x inside => by simpa using fun same : x = newline => absent (same ▸ inside)
    · cases content with
      | nil => simp
      | cons x rest => simpa using fun same : x = newline => absent (same ▸ List.mem_cons_self)
  · refine ⟨line,later.splitOn newline,?_,?_⟩
    · exact List.splitOnP_append_cons_of_forall_mem
        (fun x inside => by simpa using fun same : x = newline => absent (same ▸ inside)) newline (by simp) later
    · cases line with
      | nil => simp
      | cons x rest => simpa using fun same : x = newline => absent (same ▸ List.mem_cons_self)

theorem emptyLater (content : Bytes) :
    [] ∈ (content.splitOn newline).tail ↔
      content.getLast? = some newline ∨ [newline,newline] <:+: content := by
  induction content with
  | nil => simp
  | cons x rest ih =>
    obtain ⟨line,more,split,head⟩ := splitHead rest
    rw [split,List.tail_cons] at ih
    have ends : (x :: rest).getLast? = some newline ↔
        rest = [] ∧ x = newline ∨ rest.getLast? = some newline := by
      cases rest <;> simp
    have within : [newline,newline] <:+: x :: rest ↔
        x = newline ∧ rest.head? = some newline ∨ [newline,newline] <:+: rest := by
      have first : [newline] <+: rest ↔ rest.head? = some newline := by
        cases rest with
        | nil => simp
        | cons y later => simp [List.cons_prefix_cons,eq_comm (a := newline)]
      rw [List.infix_cons_iff,List.cons_prefix_cons,first,eq_comm (a := newline)]
    have parts : (x :: rest).splitOn newline =
        if x = newline then [] :: line :: more else (x :: line) :: more := by
      have step := List.splitOnP_cons_eq_if_modifyHead (p := (· == newline)) x rest
      rw [← List.splitOn,← List.splitOn,split] at step
      rw [step]
      by_cases same : x = newline <;> simp [same]
    rw [parts,ends,within]
    by_cases same : x = newline
    · rw [if_pos same,List.tail_cons,List.mem_cons,ih,eq_comm,head]
      simp only [same,and_true,true_and]
      exact or_or_or_comm
    · rw [if_neg same,List.tail_cons,ih]
      simp only [same,and_false,false_and,false_or]

theorem emptyLineIff (content : Bytes) : [] ∈ content.splitOn newline ↔ ¬ NoEmptyLine content := by
  obtain ⟨line,rest,split,head⟩ := splitHead content
  have later := emptyLater content
  rw [split,List.tail_cons] at later
  rw [split,List.mem_cons,later,eq_comm,head]
  constructor
  · rintro ((rfl | first) | last | between) whole
    · exact whole.filled rfl
    · exact whole.first first
    · exact whole.last last
    · exact whole.between between
  · intro broken
    by_contra none
    push Not at none
    exact broken ⟨none.1.1,none.1.2,none.2.1,none.2.2⟩

/- The server with the library's cipher, and with the challenge it has drawn. -/
def vncHost (host : SecurityHost) (des : Des) (challenge : Challenge) : SecurityHost :=
  {host with randomBytes := challenge.toList, encryptDES := TLS.encryptDES des}

def received (challenge : Challenge) (s : ServerStream) : Bytes := ((s.sendData challenge.toList).recvData 16).1

theorem matchPasswordIff (des : Des) (challenge : Challenge) (answer : Bytes) (lines : List Bytes) :
    matchPassword (TLS.encryptDES des) challenge.toList answer lines =
      some (decide (∃ pass ∈ lines, response des challenge pass = answer)) := by
  induction lines with
  | nil => simp [matchPassword]
  | cons pass rest ih =>
    have crypt : TLS.encryptDES des challenge.toList pass = some (response des challenge pass) :=
      serverExpectsResponse des challenge pass
    simp only [matchPassword,crypt,Option.bind_eq_bind,Option.bind_some,ih]
    by_cases same : response des challenge pass = answer <;> simp [same]

/- The passwords that are tried are those of the loop. -/
theorem authVncInitIff (host : SecurityHost) (des : Des) (challenge : Challenge) (passwdFile : String)
    (s : ServerStream) :
    (authVncInit (vncHost host des challenge) passwdFile s).1 = some true ↔
      ∃ pass ∈ passwords (.opened (host.passwdText passwdFile)), response des challenge pass = received challenge s := by
  have tried : passwords (.opened (host.passwdText passwdFile)) =
      ((host.passwdText passwdFile).map (·.splitOn 10)).getD [] := by
    cases host.passwdText passwdFile with
    | none => rw [Ifstream.opened,passwords]; rfl
    | some content => exact passwordsSplit content
  rw [tried]
  simp only [authVncInit,vncHost,matchPasswordIff]
  by_cases found : ∃ pass ∈ ((host.passwdText passwdFile).map (·.splitOn 10)).getD [],
      response des challenge pass = ((s.sendData challenge.toList).recvData 16).1
  · simp [received,found]
  · simp [received,found]

/- Whatever the client sends, what it is let in with answers for a line that is not empty. -/
def OnlyLines (host : SecurityHost) (des : Des) (challenge : Challenge) (passwdFile : String) : Prop :=
  ∀ s, (authVncInit (vncHost host des challenge) passwdFile s).1 = some true →
    ∃ content, host.passwdText passwdFile = some content ∧
      ∃ pass ∈ content.splitOn newline, pass ≠ [] ∧ received challenge s = response des challenge pass

/- The client that answers for the empty password. -/
theorem emptyPasswordTried (host : SecurityHost) (des : Des) (challenge : Challenge) (passwdFile : String)
    (content : Bytes) (only : OnlyLines host des challenge passwdFile) (text : host.passwdText passwdFile = some content) :
    NoEmptyLine content ∨
      ∃ pass ∈ content.splitOn newline, pass ≠ [] ∧ response des challenge pass = response des challenge [] := by
  by_contra failed
  push Not at failed
  obtain ⟨blank,other⟩ := failed
  have tried : [] ∈ content.splitOn newline := (emptyLineIff content).mpr blank
  let s : ServerStream :=
    {input := response des challenge [], writes := 1, junk := [], rfbMessages := true, sent := []}
  have answer : received challenge s = response des challenge [] := by
    have size : (response des challenge []).length = 16 := by simp [response,bytesOf,independent]
    simp [received,s,ServerStream.sendData,ServerStream.sendRaw,ServerStream.recvData,ServerStream.recvRaw,size,
      List.take_of_length_le size.le]
  have accepted : (authVncInit (vncHost host des challenge) passwdFile s).1 = some true := by
    refine (authVncInitIff host des challenge passwdFile s).mpr ⟨[],?_,answer.symm⟩
    rw [text,Ifstream.opened,passwordsSplit]
    exact tried
  obtain ⟨_,same,pass,line,filled,matched⟩ := only s accepted
  cases text.symm.trans same
  exact other pass line filled (matched.symm.trans answer)

theorem onlyLinesIff (host : SecurityHost) (des : Des) (challenge : Challenge) (passwdFile : String) :
    OnlyLines host des challenge passwdFile ↔
      ∀ content, host.passwdText passwdFile = some content → NoEmptyLine content ∨
        ∃ pass ∈ content.splitOn newline, pass ≠ [] ∧ response des challenge pass = response des challenge [] := by
  constructor
  · intro only content text
    exact emptyPasswordTried host des challenge passwdFile content only text
  · intro lines s accepted
    obtain ⟨pass,tried,matched⟩ := (authVncInitIff host des challenge passwdFile s).mp accepted
    cases text : host.passwdText passwdFile with
    | none => simp [text,Ifstream.opened,passwords] at tried
    | some content =>
      rw [text,Ifstream.opened,passwordsSplit] at tried
      refine ⟨content,rfl,?_⟩
      by_cases empty : pass = []
      · subst empty
        rcases lines content text with whole | ⟨other,line,filled,same⟩
        · exact absurd whole ((emptyLineIff content).mp tried)
        · exact ⟨other,line,filled,matched.symm.trans same.symm⟩
      · exact ⟨pass,tried,empty,matched.symm⟩

/- A passwd file of the one line "secret", with its line end. -/
def secretHost : SecurityHost :=
  {kerberosHost with passwdText := fun _ => some [0x73,0x65,0x63,0x72,0x65,0x74,newline]}

def onlyZeroKey : Des := fun key => if key = zeroBlock then Equiv.swap zeroBlock zeroImage else Equiv.refl Block

theorem emptyPasswordAccepted : ¬ OnlyLines secretHost onlyZeroKey (Vector.replicate 16 0) "passwd" := by
  intro only
  have last := emptyPasswordTried secretHost onlyZeroKey (Vector.replicate 16 0) "passwd" _ only rfl
  revert last
  decide

end Ltsm.VncPasswordFile
