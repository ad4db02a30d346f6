import Ltsm.Library.Loops
import Ltsm.DividedRegions

/-! The copy of a region of the screen without shared memory, some rows with each
request. As many rows are asked for as a request holds, but that number is kept in
sixteen bits. -/
namespace Ltsm.ScreenRows
open Library Regions Region DividedRegions

/- What xcb_get_image is called with; its y is an int16_t. -/
structure Request where
  y : Int
  rows : Nat
  deriving DecidableEq, Repr

/- An error is busy or another one; an image has a visual that is known or not. -/
inductive Reply where
  | error (busy : Bool)
  | silent
  | image (known : Bool) (data : Bytes)
  deriving DecidableEq, Repr

/- xcb_error_busy is thrown, or the pixels are returned, if there are any. -/
inductive Outcome where
  | busy
  | done (requests : List Request) (pixels : Option Bytes)
  deriving DecidableEq, Repr

structure Copy where
  yy : Int
  allowRows : Nat
  requests : List Request
  pixels : Option Bytes
  deriving DecidableEq, Repr

def pitch (reg : Region) (bitsPerPixel : Nat) : Nat := reg.width * (bitsPerPixel / 8)

def allowed (reg : Region) (bitsPerPixel maxReqLength : Nat) : Nat :=
  min (toUInt16 (maxReqLength / pitch reg bitsPerPixel : Nat)) reg.height

/- The last request is for what is left. -/
def shortened (reg : Region) (c : Copy) : Nat :=
  if reg.y + reg.height < c.yy + c.allowRows then (reg.y + reg.height - c.yy).toNat else c.allowRows

/- Whatever the server answers may depend on what it has been asked before. -/
def copyRows (reg : Region) (answer : List Request → Request → Reply) (c : Copy) : Copy ⊕ Outcome :=
  if c.yy < reg.y + reg.height then
    let allowRows := shortened reg c
    let request : Request := ⟨toInt16 c.yy,allowRows⟩
    let requests := c.requests ++ [request]
    match answer c.requests request with
    | .error true => .inr .busy
    | .error false => .inr (.done requests c.pixels)
    | .silent => .inl ⟨c.yy + allowRows,allowRows,requests,c.pixels⟩
    | .image known data =>
      if c.pixels = none ∧ known = false then .inr (.done requests c.pixels)
      else .inl ⟨c.yy + allowRows,allowRows,requests,some (c.pixels.getD [] ++ data)⟩
  else .inr (.done c.requests c.pixels)

def copyStart (reg : Region) (bitsPerPixel maxReqLength : Nat) : Copy :=
  ⟨reg.y,allowed reg bitsPerPixel maxReqLength,[],none⟩

def Copies (reg : Region) (bitsPerPixel maxReqLength : Nat) (answer : List Request → Request → Reply)
    (outcome : Outcome) : Prop :=
  if pitch reg bitsPerPixel = 0 then outcome = .done [] none
  else Returns (copyRows reg answer) (copyStart reg bitsPerPixel maxReqLength) outcome

/-! What the copy is for. -/

def rowsFrom (y : Int) (count : Nat) : List Int := (List.range count).map fun (n : Nat) => y + n

/- All requests succeed: the rows that are asked for are answered with. -/
def Serves (row : Int → Bytes) (answer : List Request → Request → Reply) : Prop :=
  ∀ before request, answer before request = .image true ((rowsFrom request.y request.rows).flatMap row)

structure CopiesAll (reg : Region) (bitsPerPixel maxReqLength : Nat) : Prop where
  ends : ∀ answer, ∃ outcome, Copies reg bitsPerPixel maxReqLength answer outcome
  covers : ∀ row answer, Serves row answer → ∃ requests pixels,
    Copies reg bitsPerPixel maxReqLength answer (.done requests (some pixels)) ∧
    requests.flatMap (fun r => rowsFrom r.y r.rows) = rowsFrom reg.y reg.height ∧
    pixels = (rowsFrom reg.y reg.height).flatMap row ∧
    ((∀ y, (row y).length = pitch reg bitsPerPixel) → pixels.length = reg.height * pitch reg bitsPerPixel)

/- A request is for some rows, and the last one begins where an int16_t can say it. -/
structure Copyable (reg : Region) (bitsPerPixel maxReqLength : Nat) : Prop where
  some : maxReqLength / pitch reg bitsPerPixel % 65536 ≠ 0
  last : reg.y + ((reg.height - 1) / allowed reg bitsPerPixel maxReqLength *
    allowed reg bitsPerPixel maxReqLength : Nat) < 32768

/-! One round. -/

section
variable {reg : Region} {answer : List Request → Request → Reply} {c next : Copy}

theorem roundOver (past : reg.y + reg.height ≤ c.yy) : copyRows reg answer c = .inr (.done c.requests c.pixels) :=
  if_neg (Int.not_lt.mpr past)

/- Whatever the answer was: a round that goes on has made one request and moved on by its rows. -/
theorem roundGoes (goes : copyRows reg answer c = .inl next) :
    c.yy < reg.y + reg.height ∧ next.yy = c.yy + shortened reg c ∧ next.allowRows = shortened reg c ∧
      next.requests = c.requests ++ [⟨toInt16 c.yy,shortened reg c⟩] := by
  by_cases more : c.yy < reg.y + reg.height
  · rw [copyRows,if_pos more] at goes
    refine ⟨more,?_⟩
    cases reply : answer c.requests ⟨toInt16 c.yy,shortened reg c⟩ with
    | error busy => cases busy <;> simp [reply] at goes
    | silent =>
      simp only [reply,Sum.inl.injEq] at goes
      simp [← goes]
    | image known data =>
      simp only [reply] at goes
      split at goes
      · cases goes
      · simp only [Sum.inl.injEq] at goes
        simp [← goes]
  · rw [roundOver (Int.not_lt.mp more)] at goes
    cases goes

theorem roundServed {row : Int → Bytes} (serves : Serves row answer) (more : c.yy < reg.y + reg.height) :
    copyRows reg answer c = .inl ⟨c.yy + shortened reg c,shortened reg c,
      c.requests ++ [⟨toInt16 c.yy,shortened reg c⟩],
      some (c.pixels.getD [] ++ (rowsFrom (toInt16 c.yy) (shortened reg c)).flatMap row)⟩ := by
  rw [copyRows,if_pos more]
  simp [serves c.requests ⟨toInt16 c.yy,shortened reg c⟩]

/- No rows are asked for, and the loop stays where it is. -/
theorem roundStuck {row : Int → Bytes} (serves : Serves row answer) (some : 0 < reg.height) (here : c.yy = reg.y)
    (none : c.allowRows = 0) : ∃ next, copyRows reg answer c = .inl next ∧ next.yy = reg.y ∧ next.allowRows = 0 := by
  have zero : shortened reg c = 0 := by
    unfold shortened
    rw [if_neg (by omega),none]
  exact ⟨_,roundServed serves (by omega),by simp [here,zero],zero⟩

theorem shortenedFilled (positive : 0 < c.allowRows) (more : c.yy < reg.y + reg.height) :
    0 < shortened reg c ∧ c.yy + shortened reg c ≤ reg.y + reg.height := by
  unfold shortened
  split <;> omega

end

/-! The whole loop. -/

theorem rowsFromAppend (y : Int) (first second : Nat) :
    rowsFrom y (first + second) = rowsFrom y first ++ rowsFrom (y + first) second := by
  simp [rowsFrom,List.range_add,Int.add_assoc]

theorem memRowsFrom {y n : Int} {count : Nat} : n ∈ rowsFrom y count ↔ y ≤ n ∧ n < y + count := by
  simp only [rowsFrom,List.mem_map,List.mem_range]
  constructor
  · rintro ⟨i,low,rfl⟩
    omega
  · rintro ⟨low,high⟩
    exact ⟨(n - y).toNat,by omega,by omega⟩

/- Where the loop stands: behind whole requests, or at the end. -/
def Stands (reg : Region) (allow pos : Nat) (c : Copy) : Prop :=
  c.yy = reg.y + pos ∧ pos ≤ reg.height ∧ (pos = reg.height ∨ (c.allowRows = allow ∧ allow ∣ pos))

section
variable {reg : Region} {allow pos : Nat} {c : Copy}

theorem standsNext (positive : 0 < allow) (stands : Stands reg allow pos c) (more : c.yy < reg.y + reg.height) :
    0 < shortened reg c ∧ shortened reg c ≤ allow ∧ allow ∣ pos ∧ pos < reg.height ∧
      ∀ next : Copy, next.yy = c.yy + shortened reg c → next.allowRows = shortened reg c →
        Stands reg allow (pos + shortened reg c) next := by
  obtain ⟨here,below,last | ⟨whole,multiple⟩⟩ := stands
  · omega
  · obtain ⟨some,inside⟩ := shortenedFilled (whole ▸ positive) more
    have short : shortened reg c ≤ c.allowRows := by
      unfold shortened
      split <;> omega
    refine ⟨some,whole ▸ short,multiple,by omega,fun next moved kept => ⟨by omega,by omega,?_⟩⟩
    by_cases rest : reg.y + reg.height < c.yy + c.allowRows
    · have left : shortened reg c = (reg.y + reg.height - c.yy).toNat := if_pos rest
      exact .inl (by omega)
    · have full : shortened reg c = allow := (if_neg rest).trans whole
      rw [full] at kept ⊢
      exact .inr ⟨kept,(Nat.dvd_add_right multiple).mpr dvd_rfl⟩

/- It ends whatever is answered. -/
theorem copyEnds (reg : Region) (answer : List Request → Request → Reply) (c : Copy) (positive : 0 < c.allowRows) :
    ∃ outcome, Returns (copyRows reg answer) c outcome := by
  refine returnsWithin (I := fun c => 0 < c.allowRows) (fun c => (reg.y + reg.height - c.yy).toNat) ?_ positive
  intro c next inv goes
  obtain ⟨more,moved,kept,_⟩ := roundGoes goes
  obtain ⟨some,_⟩ := shortenedFilled inv more
  omega

/- The rows before the position have been asked for, and their pixels are there. -/
def Covered (reg : Region) (allow : Nat) (row : Int → Bytes) (c : Copy) : Prop :=
  ∃ pos, Stands reg allow pos c ∧ c.requests.flatMap (fun r => rowsFrom r.y r.rows) = rowsFrom reg.y pos ∧
    c.pixels = if pos = 0 then none else some ((rowsFrom reg.y pos).flatMap row)

theorem multipleLow {height : Nat} (multiple : allow ∣ pos) (below : pos < height) :
    pos ≤ (height - 1) / allow * allow := by
  obtain ⟨k,rfl⟩ := multiple
  by_cases none : allow = 0
  · simp [none]
  · have few : k ≤ (height - 1) / allow := (Nat.le_div_iff_mul_le (by omega)).mpr (by rw [Nat.mul_comm]; omega)
    rw [Nat.mul_comm]
    exact Nat.mul_le_mul_right allow few

theorem coveredNext {row : Int → Bytes} {answer : List Request → Request → Reply} (serves : Serves row answer)
    (positive : 0 < allow) (top : -32768 ≤ reg.y) (last : reg.y + ((reg.height - 1) / allow * allow : Nat) < 32768)
    {next : Copy} (covered : Covered reg allow row c) (goes : copyRows reg answer c = .inl next) :
    Covered reg allow row next := by
  obtain ⟨pos,stands,rows,pixels⟩ := covered
  obtain ⟨more,_⟩ := roundGoes goes
  obtain ⟨some,_,multiple,below,moves⟩ := standsNext positive stands more
  have low := multipleLow multiple below
  have here : c.yy = reg.y + pos := stands.1
  have stored : toInt16 c.yy = reg.y + pos := by
    rw [here]
    exact toInt16Fits (by omega) (by omega)
  rw [roundServed serves more] at goes
  cases goes
  refine ⟨pos + shortened reg c,moves _ rfl rfl,?_,?_⟩
  · simp only [List.flatMap_append,List.flatMap_singleton,rows,stored,rowsFromAppend]
  · rw [if_neg (show pos + shortened reg c ≠ 0 by omega),rowsFromAppend,List.flatMap_append,stored,pixels]
    by_cases first : pos = 0
    · simp [first,rowsFrom]
    · rw [if_neg first,Option.getD_some]

theorem copyCovers {row : Int → Bytes} {answer : List Request → Request → Reply} (serves : Serves row answer)
    (some : 0 < reg.height) (positive : 0 < allow) (top : -32768 ≤ reg.y)
    (last : reg.y + ((reg.height - 1) / allow * allow : Nat) < 32768) :
    ∃ requests, Returns (copyRows reg answer) ⟨reg.y,allow,[],none⟩
      (.done requests (.some ((rowsFrom reg.y reg.height).flatMap row))) ∧
      requests.flatMap (fun r => rowsFrom r.y r.rows) = rowsFrom reg.y reg.height := by
  obtain ⟨outcome,returns⟩ := copyEnds reg answer ⟨reg.y,allow,[],none⟩ positive
  have start : Covered reg allow row ⟨reg.y,allow,[],none⟩ :=
    ⟨0,⟨by simp,Nat.zero_le _,.inr ⟨rfl,Nat.dvd_zero allow⟩⟩,by simp [rowsFrom],by simp⟩
  obtain ⟨requests,rfl,covers⟩ : ∃ requests,
      outcome = .done requests (.some ((rowsFrom reg.y reg.height).flatMap row)) ∧
      requests.flatMap (fun r => rowsFrom r.y r.rows) = rowsFrom reg.y reg.height := by
    refine returnsInvariant (I := Covered reg allow row) (P := fun outcome => ∃ requests,
      outcome = .done requests (.some ((rowsFrom reg.y reg.height).flatMap row)) ∧
      requests.flatMap (fun r => rowsFrom r.y r.rows) = rowsFrom reg.y reg.height) ?_ ?_ start returns
    · intro c next covered goes
      exact coveredNext serves positive top last covered goes
    · intro c result covered leaves
      obtain ⟨pos,⟨here,below,_⟩,rows,pixels⟩ := covered
      by_cases more : c.yy < reg.y + reg.height
      · rw [roundServed serves more] at leaves
        cases leaves
      · obtain rfl : pos = reg.height := by omega
        rw [roundOver (Int.not_lt.mp more)] at leaves
        cases leaves
        exact ⟨_,by rw [pixels,if_neg (by omega)],rows⟩
  exact ⟨requests,returns,covers⟩

/- A request begins at every multiple before the position, with the y that is stored of it. -/
def Reached (reg : Region) (allow : Nat) (c : Copy) : Prop :=
  ∃ pos, Stands reg allow pos c ∧
    ∀ k, k * allow < pos → ∃ r ∈ c.requests, r.y = toInt16 (reg.y + (k * allow : Nat)) ∧ 0 < r.rows

theorem reachedNext {answer : List Request → Request → Reply} (positive : 0 < allow) {next : Copy}
    (reached : Reached reg allow c) (goes : copyRows reg answer c = .inl next) : Reached reg allow next := by
  obtain ⟨pos,stands,starts⟩ := reached
  obtain ⟨more,moved,kept,requests⟩ := roundGoes goes
  obtain ⟨some,short,⟨m,multiple⟩,_,moves⟩ := standsNext positive stands more
  refine ⟨pos + shortened reg c,moves next moved kept,fun k low => ?_⟩
  rw [requests]
  by_cases before : k * allow < pos
  · obtain ⟨r,listed,same⟩ := starts k before
    exact ⟨r,List.mem_append_left _ listed,same⟩
  · have here : k * allow = pos := by
      rw [multiple,Nat.mul_comm allow m] at before low ⊢
      have above : m ≤ k := Nat.le_of_mul_le_mul_right (Nat.not_lt.mp before) positive
      have within : k * allow < (m + 1) * allow := by rw [Nat.succ_mul]; omega
      have next := Nat.lt_of_mul_lt_mul_right within
      rw [show k = m by omega]
    exact ⟨_,List.mem_append_right _ (List.mem_singleton_self _),by rw [here,stands.1],some⟩

/- If the rows that are asked for are those of the region, the last request began where it should. -/
theorem coversLast {answer : List Request → Request → Reply} {row : Int → Bytes} (serves : Serves row answer)
    (positive : 0 < allow) (some : 0 < reg.height) (small : reg.y < 32768) (high : reg.height < 65536)
    {requests : List Request} {pixels : Option Bytes}
    (returns : Returns (copyRows reg answer) ⟨reg.y,allow,[],none⟩ (.done requests pixels))
    (covers : requests.flatMap (fun r => rowsFrom r.y r.rows) = rowsFrom reg.y reg.height) :
    reg.y + ((reg.height - 1) / allow * allow : Nat) < 32768 := by
  have start : Reached reg allow ⟨reg.y,allow,[],none⟩ :=
    ⟨0,⟨by simp,Nat.zero_le _,.inr ⟨rfl,Nat.dvd_zero allow⟩⟩,fun k low => absurd low (Nat.not_lt_zero _)⟩
  have reached : ∀ out left, Outcome.done requests pixels = .done out left → ∀ k, k * allow < reg.height →
      ∃ r ∈ out, r.y = toInt16 (reg.y + (k * allow : Nat)) ∧ 0 < r.rows := by
    refine returnsInvariant (I := Reached reg allow) (P := fun outcome => ∀ out left, outcome = .done out left →
      ∀ k, k * allow < reg.height → ∃ r ∈ out, r.y = toInt16 (reg.y + (k * allow : Nat)) ∧ 0 < r.rows) ?_ ?_ start
      returns
    · intro c next reached goes
      exact reachedNext positive reached goes
    · rintro c result ⟨pos,⟨here,below,_⟩,starts⟩ leaves out left same k low
      by_cases more : c.yy < reg.y + reg.height
      · rw [roundServed serves more] at leaves
        cases leaves
      · obtain rfl : pos = reg.height := by omega
        rw [roundOver (Int.not_lt.mp more)] at leaves
        cases leaves
        cases same
        exact starts k low
  have below : (reg.height - 1) / allow * allow ≤ reg.height - 1 := Nat.div_mul_le_self _ _
  obtain ⟨r,listed,begins,filled⟩ := reached requests pixels rfl ((reg.height - 1) / allow) (by omega)
  have inside : r.y ∈ rowsFrom reg.y reg.height := by
    rw [← covers]
    exact List.mem_flatMap.mpr ⟨r,listed,memRowsFrom.mpr ⟨le_rfl,by omega⟩⟩
  obtain ⟨above,_⟩ := memRowsFrom.mp inside
  by_contra late
  have wrapped := Int.bmod_def (reg.y + ((reg.height - 1) / allow * allow : Nat)) 65536
  rw [begins,toInt16] at above
  split at wrapped <;> omega

end

theorem allowedSome {reg : Region} {bitsPerPixel maxReqLength : Nat} (some : 0 < reg.height) :
    0 < allowed reg bitsPerPixel maxReqLength ↔ maxReqLength / pitch reg bitsPerPixel % 65536 ≠ 0 := by
  rw [allowed,toUInt16Nat]
  omega

theorem rowsLength {row : Int → Bytes} {length : Nat} (each : ∀ y, (row y).length = length) (ys : List Int) :
    (ys.flatMap row).length = ys.length * length := by
  induction ys with
  | nil => simp
  | cons y rest ih => rw [List.flatMap_cons,List.length_append,each,ih,List.length_cons,Nat.succ_mul,Nat.add_comm]

/- With no rows to a request the loop goes on for ever, though all requests succeed. -/
theorem copyStuck {reg : Region} {row : Int → Bytes} {answer : List Request → Request → Reply}
    (serves : Serves row answer) (some : 0 < reg.height) (outcome : Outcome) :
    ¬Returns (copyRows reg answer) ⟨reg.y,0,[],none⟩ outcome := by
  refine returnsNever (I := fun c => c.yy = reg.y ∧ c.allowRows = 0) ?_ ⟨rfl,rfl⟩ outcome
  rintro c ⟨here,zero⟩
  exact roundStuck serves some here zero

/- A server that sends nothing but empty rows. -/
def blank (_ : List Request) (r : Request) : Reply := .image true ((rowsFrom r.y r.rows).flatMap fun _ => [])

theorem blankServes : Serves (fun _ => []) blank := fun _ _ => rfl

theorem copiesAllIff (reg : Region) (bitsPerPixel maxReqLength : Nat) (stored : Stored reg) (wide : 0 < reg.width)
    (some : 0 < reg.height) (sized : 8 ≤ bitsPerPixel) :
    CopiesAll reg bitsPerPixel maxReqLength ↔ Copyable reg bitsPerPixel maxReqLength := by
  obtain ⟨top,small⟩ := storedRange stored.top
  have filled : pitch reg bitsPerPixel ≠ 0 := (Nat.mul_pos wide (Nat.div_pos sized (by decide))).ne'
  have copies {answer} {outcome} : Copies reg bitsPerPixel maxReqLength answer outcome ↔
      Returns (copyRows reg answer) ⟨reg.y,allowed reg bitsPerPixel maxReqLength,[],none⟩ outcome := by
    rw [Copies,if_neg filled]
    rfl
  constructor
  · rintro ⟨ends,covers⟩
    have positive : 0 < allowed reg bitsPerPixel maxReqLength := by
      by_contra none
      obtain ⟨outcome,returns⟩ := ends blank
      rw [copies,Nat.eq_zero_of_not_pos none] at returns
      exact copyStuck blankServes some outcome returns
    obtain ⟨requests,pixels,returns,rows,_⟩ := covers (fun _ => []) blank blankServes
    exact ⟨(allowedSome some).mp positive,
      coversLast blankServes positive some small stored.high (copies.mp returns) rows⟩
  · rintro ⟨quotient,last⟩
    have positive := (allowedSome some).mpr quotient
    refine ⟨fun answer => ?_,fun row answer serves => ?_⟩
    · obtain ⟨outcome,returns⟩ := copyEnds reg answer ⟨reg.y,allowed reg bitsPerPixel maxReqLength,[],none⟩ positive
      exact ⟨outcome,copies.mpr returns⟩
    · obtain ⟨requests,returns,rows⟩ := copyCovers serves some positive top last
      refine ⟨requests,_,copies.mpr returns,rows,rfl,fun each => ?_⟩
      rw [rowsLength each,rowsFrom,List.length_map,List.length_range]

theorem copiesAllWide : Copyable ⟨0,0,1024,768⟩ 32 65535 ∧ CopiesAll ⟨0,0,1024,768⟩ 32 65535 := by
  have able : Copyable ⟨0,0,1024,768⟩ 32 65535 := ⟨by decide,by decide⟩
  exact ⟨able,(copiesAllIff ⟨0,0,1024,768⟩ 32 65535 (by decide) (by decide) (by decide) (by decide)).mpr able⟩

/- One column of 32 bits, and a server that takes requests of a mebibyte, in units of four bytes. -/
theorem narrowNeverEnds : (∀ outcome, ¬Copies ⟨0,0,1,10⟩ 32 262144 blank outcome) ∧
    ¬∀ (reg : Region) (bitsPerPixel maxReqLength : Nat), Stored reg → 0 < reg.width → 0 < reg.height →
      8 ≤ bitsPerPixel → pitch reg bitsPerPixel ≤ maxReqLength → CopiesAll reg bitsPerPixel maxReqLength := by
  have never (outcome) : ¬Copies ⟨0,0,1,10⟩ 32 262144 blank outcome :=
    fun returns => copyStuck blankServes (by decide) outcome returns
  refine ⟨never,fun all => ?_⟩
  obtain ⟨outcome,returns⟩ :=
    (all ⟨0,0,1,10⟩ 32 262144 (by decide) (by decide) (by decide) (by decide) (by decide)).ends blank
  exact never outcome returns

end Ltsm.ScreenRows
