import Ltsm.Library.ByteReader

/-! Records behind one another, each with the position behind it, read through windows: a
reader takes the records that are whole in a window, and the next window begins at the
position that the last one of them had. -/
namespace Ltsm.Library

/- How an entry is written with the position behind it, and what is seen of the record at the
front of some bytes, if it is all there. -/
structure RecordFormat (E V : Type) where
  Valid : E → Prop
  limit : Nat
  view : E → V
  width : V → Nat
  bytes : E → Nat → Bytes
  parse : Bytes → Option (V × Nat)
  length : ∀ e next, (bytes e next).length = width (view e)
  positive : ∀ e, 0 < width (view e)
  nothing : parse [] = none
  whole : ∀ {e next more}, Valid e → next < limit → parse (bytes e next ++ more) = some (view e,next)
  part : ∀ {e next n}, Valid e → next < limit → n < width (view e) → parse ((bytes e next).take n) = none

/- At most so many bytes of a buffer, from a position. -/
def windowOf (buf : Bytes) (size pos : Nat) : Bytes :=
  if pos < buf.length then (buf.drop pos).take (min (buf.length - pos) size) else []

namespace RecordFormat
variable {E V : Type} (format : RecordFormat E V)

def size (e : E) : Nat := format.width (format.view e)

def total (entries : List E) : Nat := (entries.map format.size).sum

def append (buf : Bytes) (e : E) : Bytes := buf ++ format.bytes e (buf.length + format.size e)

def buffer (entries : List E) : Bytes := entries.foldl format.append []

/- The records that are whole in some bytes; each takes some of them. -/
def records : Nat → Bytes → List (V × Nat)
  | 0, _ => []
  | fuel + 1, bytes =>
    match format.parse bytes with
    | none => []
    | some (seen,next) => (seen,next) :: records fuel (bytes.drop (format.width seen))

def wholeRecords (bytes : Bytes) : List (V × Nat) := format.records bytes.length bytes

/- Window after window, until one is empty; a window without a whole record leads nowhere. -/
def readThrough (reply : Nat → Nat → Bytes) (sizes : Nat → Nat) : Nat → Nat → Option (List V)
  | 0, _ => none
  | calls + 1, pos =>
    match (format.wholeRecords (reply (sizes calls) pos)).getLast? with
    | none => if reply (sizes calls) pos = [] then some [] else none
    | some (_,next) => (readThrough reply sizes calls next).map fun rest =>
      (format.wholeRecords (reply (sizes calls) pos)).map Prod.fst ++ rest

/- The records from a position on. -/
def tiles : Nat → List E → Bytes
  | _, [] => []
  | pos, e :: rest => format.bytes e (pos + format.size e) ++ tiles (pos + format.size e) rest

/- As many entries as fit. -/
def fitting : Nat → List E → List E
  | _, [] => []
  | room, e :: rest => if format.size e ≤ room then e :: fitting (room - format.size e) rest else []

variable {format} {entries : List E}

@[simp] theorem totalNil : format.total [] = 0 := rfl

@[simp] theorem totalCons (e : E) (rest : List E) : format.total (e :: rest) = format.size e + format.total rest := by
  simp [total]

@[simp] theorem totalAppend (first rest : List E) :
    format.total (first ++ rest) = format.total first + format.total rest := by simp [total]

theorem tilesLength (pos : Nat) (entries : List E) : (format.tiles pos entries).length = format.total entries := by
  induction entries generalizing pos with
  | nil => rfl
  | cons e rest ih =>
    rw [tiles,List.length_append,format.length,ih,totalCons]
    rfl

theorem tilesAppend (pos : Nat) (first rest : List E) :
    format.tiles pos (first ++ rest) = format.tiles pos first ++ format.tiles (pos + format.total first) rest := by
  induction first generalizing pos with
  | nil => rfl
  | cons e first ih => rw [List.cons_append,tiles,tiles,ih,totalCons,List.append_assoc,Nat.add_assoc]

theorem foldTiles (buf : Bytes) (entries : List E) :
    entries.foldl format.append buf = buf ++ format.tiles buf.length entries := by
  induction entries generalizing buf with
  | nil => simp [tiles]
  | cons e rest ih =>
    have longer : (format.append buf e).length = buf.length + format.size e := by
      rw [append,List.length_append,format.length]
      rfl
    rw [List.foldl_cons,ih,longer,tiles,append,List.append_assoc]

theorem bufferTiles (entries : List E) : format.buffer entries = format.tiles 0 entries := foldTiles [] entries

theorem fittingPrefix (room : Nat) (entries : List E) : format.fitting room entries <+: entries := by
  induction entries generalizing room with
  | nil => exact List.prefix_refl _
  | cons e rest ih =>
    rw [fitting]
    split
    · exact (List.prefix_cons_inj e).mpr (ih _)
    · exact List.nil_prefix

/- Each of the records in the window, with the position behind it. -/
def placed : Nat → List E → List (V × Nat)
  | _, [] => []
  | pos, e :: rest => (format.view e,pos + format.size e) :: placed (pos + format.size e) rest

theorem placedViews (pos : Nat) (entries : List E) : (format.placed pos entries).map Prod.fst = entries.map format.view := by
  induction entries generalizing pos with
  | nil => rfl
  | cons e rest ih => rw [placed,List.map_cons,ih,List.map_cons]

theorem placedLast (pos : Nat) (e : E) (rest : List E) :
    ∃ seen, (format.placed pos (e :: rest)).getLast? = some (seen,pos + format.total (e :: rest)) := by
  induction rest generalizing pos e with
  | nil => exact ⟨format.view e,by simp [placed]⟩
  | cons next rest ih =>
    obtain ⟨seen,last⟩ := ih (pos + format.size e) next
    refine ⟨seen,?_⟩
    rw [placed,List.getLast?_cons_of_ne_nil (by simp [placed]),last,totalCons e,Nat.add_assoc]

/- By the entries: each that fits is taken, and of the next one there is not enough. -/
theorem recordsTake {fuel room pos : Nat} (valid : ∀ e ∈ entries, format.Valid e)
    (low : pos + format.total entries < format.limit) (enough : min room (format.total entries) ≤ fuel) :
    format.records fuel ((format.tiles pos entries).take room) = format.placed pos (format.fitting room entries) := by
  induction entries generalizing fuel room pos with
  | nil =>
    rw [tiles,List.take_nil]
    cases fuel with
    | zero => rfl
    | succ fuel =>
      rw [records,format.nothing]
      rfl
  | cons e rest ih =>
    obtain ⟨first,later⟩ := List.forall_mem_cons.mp valid
    have some : 0 < format.size e := format.positive e
    have length : (format.bytes e (pos + format.size e)).length = format.size e := format.length e _
    rw [totalCons] at low enough
    rw [tiles,fitting]
    by_cases fits : format.size e ≤ room
    · obtain ⟨left,rfl⟩ := Nat.exists_eq_add_of_le fits
      obtain ⟨fuel,rfl⟩ : ∃ less, fuel = less + 1 := ⟨fuel - 1,by omega⟩
      have front := @List.take_length_add_append _ (format.bytes e (pos + format.size e))
        (format.tiles (pos + format.size e) rest) left
      rw [length] at front
      rw [if_pos fits,Nat.add_sub_cancel_left,placed,front,records,format.whole first (by omega)]
      dsimp only
      have width : format.width (format.view e) = (format.bytes e (pos + format.size e)).length := (format.length e _).symm
      rw [width,List.drop_left,ih later (by omega) (by omega)]
    · rw [if_neg fits,placed,List.take_append_of_le_length (by omega)]
      cases fuel with
      | zero => rfl
      | succ fuel =>
        rw [records,format.part first (by omega) (not_le.mp fits)]

theorem windowTiles (done rest : List E) (room : Nat) :
    windowOf (format.buffer (done ++ rest)) room (format.total done) = (format.tiles (format.total done) rest).take room := by
  have length := format.tilesLength 0 done
  have drop : (format.buffer (done ++ rest)).drop (format.total done) = format.tiles (format.total done) rest := by
    rw [bufferTiles,tilesAppend,Nat.zero_add,← length,List.drop_left]
  have whole : (format.buffer (done ++ rest)).length = format.total done + format.total rest := by
    rw [bufferTiles,tilesLength,totalAppend]
  rw [windowOf,drop,whole,Nat.add_sub_cancel_left]
  split
  · rw [← tilesLength (format.total done) rest,List.take_eq_take_iff]
    omega
  · have none : (format.tiles (format.total done) rest).length = 0 := by
      rw [tilesLength]
      omega
    rw [List.eq_nil_of_length_eq_zero none,List.take_nil]

/- Windows that hold the largest entry show all of them, once each and in order. -/
theorem readThroughFrom {sizes : Nat → Nat} (done rest : List E) (valid : ∀ e ∈ rest, format.Valid e)
    (low : format.total (done ++ rest) < format.limit) (holds : ∀ call, ∀ e ∈ rest, format.size e ≤ sizes call)
    {calls : Nat} (enough : rest.length < calls) :
    format.readThrough (fun room pos => windowOf (format.buffer (done ++ rest)) room pos) sizes calls (format.total done) =
      some (rest.map format.view) := by
  induction calls generalizing done rest with
  | zero => exact absurd enough (Nat.not_lt_zero _)
  | succ calls ih =>
    rw [totalAppend] at low
    have seen : format.wholeRecords ((format.tiles (format.total done) rest).take (sizes calls)) =
        format.placed (format.total done) (format.fitting (sizes calls) rest) := by
      rw [wholeRecords]
      exact recordsTake valid low (by rw [List.length_take,tilesLength])
    rw [readThrough]
    rw [windowTiles,seen]
    cases rest with
    | nil =>
      rw [tiles,List.take_nil]
      rfl
    | cons e rest =>
      obtain ⟨left,split⟩ := format.fittingPrefix (sizes calls) (e :: rest)
      have first : format.size e ≤ sizes calls := holds calls e List.mem_cons_self
      obtain ⟨more,taken⟩ : ∃ more, format.fitting (sizes calls) (e :: rest) = e :: more := ⟨_,by rw [fitting,if_pos first]⟩
      obtain ⟨view,last⟩ := format.placedLast (format.total done) e more
      rw [taken] at split
      have whole : done ++ e :: rest = (done ++ e :: more) ++ left := by rw [← split,List.append_assoc]
      have size : (e :: rest).length = (e :: more).length + left.length := by rw [← split,List.length_append]
      rw [taken,last,← totalAppend,whole]
      dsimp only
      have inside : ∀ x ∈ left, x ∈ e :: rest := fun x mem => split ▸ List.mem_append_right _ mem
      rw [List.length_cons,List.length_cons] at size
      rw [List.length_cons] at enough
      rw [ih (done ++ e :: more) left (fun x mem => valid x (inside x mem))
        (by rw [← whole,totalAppend]; exact low) (fun call x mem => holds call x (inside x mem)) (by omega),
        placedViews,← split,List.map_append]
      rfl

theorem readThroughAll {sizes : Nat → Nat} (valid : ∀ e ∈ entries, format.Valid e)
    (low : format.total entries < format.limit) (holds : ∀ call, ∀ e ∈ entries, format.size e ≤ sizes call) :
    format.readThrough (windowOf (format.buffer entries)) sizes (entries.length + 1) 0 = some (entries.map format.view) :=
  readThroughFrom [] entries valid low holds (Nat.lt_succ_self _)

end RecordFormat
/- A reader that has nothing for the front of its bytes alone. -/
def Needs {A : Type} (r : Reader A) (bytes : Bytes) : Prop := ∀ n, n < bytes.length → r.run (bytes.take n) = none

theorem needsPure {A : Type} (a : A) : Needs (pure a) [] := fun n few => absurd few (Nat.not_lt_zero n)

theorem needsTake (bytes : Bytes) : Needs (takeBytes bytes.length) bytes := by
  intro n few
  rw [StateT.run,takeBytes,List.length_take,if_neg (by omega)]

theorem needsBind {A B : Type} {r : Reader A} {f : A → Reader B} {first second : Bytes} {a : A}
    (one : Reads r first a) (short : Needs r first) (more : Needs (f a) second) : Needs (r >>= f) (first ++ second) := by
  intro n few
  rw [List.length_append] at few
  rw [StateT.run_bind]
  rcases Nat.lt_or_ge n first.length with less | enough
  · rw [List.take_append_of_le_length (Nat.le_of_lt less),short n less]
    rfl
  · obtain ⟨k,rfl⟩ := Nat.exists_eq_add_of_le enough
    rw [List.take_length_add_append,one]
    exact more k (by omega)

theorem needsMap {A B : Type} {r : Reader A} {bytes : Bytes} {a : A} (one : Reads r bytes a) (short : Needs r bytes)
    (f : A → B) : Needs (r >>= fun a => pure (f a)) bytes := by
  have both := needsBind (f := fun a => pure (f a)) one short (needsPure (f a))
  rwa [List.append_nil] at both

end Ltsm.Library
