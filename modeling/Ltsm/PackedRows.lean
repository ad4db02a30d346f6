import Ltsm.TrleTiles

/-! Rows of packed values: whatever is pushed, with alignments between the rows, comes
back from the bytes row by row, each row from its last value on, as the decoder of the
palette draws it. -/
namespace Ltsm.PackedRows
open Library Regions FrameBuffers BitStreams TrleTiles

inductive Push where
  | value (val : Nat)
  | align

def Push.apply (field : Nat) (sb : StreamBits) : Push → StreamBits
  | value val => sb.pushValue val field
  | align => sb.pushAlign

def pushAll (field : Nat) (pushes : List Push) (sb : StreamBits) : StreamBits :=
  pushes.foldl (Push.apply field) sb

/- The values between the alignments; `now` is the row that is being pushed. -/
def rowsFrom (now : List Nat) : List Push → List (List Nat)
  | [] => [now]
  | .value val :: rest => rowsFrom (now ++ [val]) rest
  | .align :: rest => now :: rowsFrom [] rest

def rowsOf (pushes : List Push) : List (List Nat) := rowsFrom [] pushes

def popValues (field : Nat) : Nat → StreamBits → Option (List Nat × StreamBits)
  | 0, sb => some ([],sb)
  | counts + 1, sb => do
    let (index,sb) ← sb.popValue field
    let (rest,sb) ← popValues field counts sb
    some (index :: rest,sb)

/- The values of a row as they are popped, and what is left of its bits. -/
def recvRow (field width : Nat) : Reader (List Nat × StreamBits) :=
  takeBytes (rowLength (field * width)) >>= fun bytes =>
    ofOption ((streamBitsUnpack bytes width field).bind (popValues field width))

def recvRows (field : Nat) : List Nat → Reader (List (List Nat × StreamBits))
  | [] => pure []
  | width :: rest => recvRow field width >>= fun row => recvRows field rest >>= fun rows => pure (row :: rows)

/- A stream of which every bit has been popped. -/
def spent : StreamBits := ⟨0,[]⟩

/-! The decoder of the palette. -/

def drawIndices (palette : List UInt32) : List (Point × Nat) → Screen → Option Screen
  | [], s => some s
  | (p,index) :: rest, s => do
    let pixel ← palette[index]?
    drawIndices palette rest (setPixel p pixel s)

/- A line is drawn from the values in the order in which they are popped. -/
theorem unpackLineValues (palette : List UInt32) (field : Nat) (points : List Point) (sb : StreamBits) (s : Screen) :
    (∃ popped, popValues field points.length sb = some popped ∧
      unpackLine palette field points sb s = drawIndices palette (points.zip popped.1) s) ∨
    (popValues field points.length sb = none ∧ unpackLine palette field points sb s = none) := by
  induction points generalizing sb s with
  | nil => exact .inl ⟨_,rfl,rfl⟩
  | cons p rest ih =>
    cases pops : sb.popValue field with
    | none => exact .inr ⟨by simp [popValues,pops],by simp [unpackLine,pops]⟩
    | some first =>
      obtain ⟨index,sb'⟩ := first
      cases colour : palette[index]? with
      | none =>
        cases later : popValues field rest.length sb' with
        | none => exact .inr ⟨by simp [popValues,pops,later],by simp [unpackLine,pops,colour]⟩
        | some popped =>
          exact .inl ⟨(index :: popped.1,popped.2),by simp [popValues,pops,later],
            by simp [unpackLine,pops,colour,drawIndices]⟩
      | some pixel =>
        obtain ⟨popped,later,drawn⟩ | ⟨later,drawn⟩ := ih sb' (setPixel p pixel s)
        · exact .inl ⟨(index :: popped.1,popped.2),by simp [popValues,pops,later],
            by simp [unpackLine,pops,colour,drawIndices,drawn]⟩
        · exact .inr ⟨by simp [popValues,pops,later],by simp [unpackLine,pops,colour,drawn]⟩

/-! One row. -/

theorem unpackedSpent {sb : StreamBits} {value : Nat} (h : Unpacked sb 0 value) : sb = spent := by
  obtain ⟨bitpos,vecbuf⟩ := sb
  obtain ⟨low,length,_⟩ := h
  obtain rfl : vecbuf = [] := List.length_eq_zero_iff.mp (by simp only at low length; omega)
  obtain rfl : bitpos = 0 := by simpa using length.symm
  rfl

/- The last value is in the lowest bits, so it is the first to be popped. -/
theorem popsRow {field : Nat} {values : List Nat} (small : ∀ value ∈ values, value < 2 ^ field)
    {sb : StreamBits} (h : Unpacked sb (field * values.length) (spell field values)) :
    popValues field values.length sb = some (values.reverse,spent) := by
  induction values using List.reverseRecOn generalizing sb with
  | nil => rw [unpackedSpent h]; rfl
  | append_singleton values last ih =>
    obtain ⟨firsts,low⟩ : (∀ value ∈ values, value < 2 ^ field) ∧ last < 2 ^ field := by
      simpa [or_imp,forall_and] using small
    rw [List.length_append,List.length_singleton,Nat.mul_add,Nat.mul_one,spellSnoc] at h
    obtain ⟨rest,pops,left⟩ := unpackedValue h
    rw [Nat.add_comm,Nat.add_mul_mod_self_right,Nat.mod_eq_of_lt low] at pops
    rw [Nat.add_comm,Nat.add_mul_div_right _ _ (Nat.two_pow_pos field),Nat.div_eq_of_lt low,Nat.zero_add] at left
    rw [List.length_append,List.length_singleton,popValues,pops]
    simp [ih firsts left]

theorem readsRow {field : Nat} {values : List Nat} (small : ∀ value ∈ values, value < 2 ^ field)
    {before : Bytes} {sb : StreamBits} (h : Packed before sb (field * values.length) (spell field values)) :
    ∃ row, sb.vecbuf = row ++ before ∧
      Reads (recvRow field values.length) row.reverse (values.reverse,spent) := by
  obtain ⟨row,sb',bytes,length,unpack,left⟩ := packedUnpacked h
  refine ⟨row,bytes,?_⟩
  have pops : (streamBitsUnpack row.reverse values.length field).bind (popValues field values.length) =
      some (values.reverse,spent) := by
    rw [unpack,Option.bind_some,popsRow small left]
  have takes : Reads (takeBytes (rowLength (field * values.length))) row.reverse row.reverse := by
    rw [← length,← List.length_reverse]
    exact readsTake _
  rw [recvRow,← List.append_nil row.reverse]
  refine readsBind takes ?_
  rw [pops]
  exact readsOption _

/-! All rows. -/

/- By induction on the pushes: what has been pushed since the last alignment spells the
row so far, and the bytes before it stay as they are. -/
theorem readsRowsFrom {field : Nat} {pushes : List Push}
    (small : ∀ val, .value val ∈ pushes → val < 2 ^ field) {now : List Nat}
    (low : ∀ value ∈ now, value < 2 ^ field) {before : Bytes} {sb : StreamBits}
    (h : Packed before sb (field * now.length) (spell field now)) :
    ∃ bytes, (pushAll field pushes sb).toVector = before.reverse ++ bytes ∧
      Reads (recvRows field ((rowsFrom now pushes).map List.length)) bytes
        ((rowsFrom now pushes).map fun row => (row.reverse,spent)) := by
  induction pushes generalizing now before sb with
  | nil =>
    obtain ⟨row,same,reads⟩ := readsRow low h
    refine ⟨row.reverse,by simp [pushAll,StreamBits.toVector,same],?_⟩
    exact readsMap reads fun row => [row]
  | cons push rest ih =>
    have later (val) (listed : Push.value val ∈ rest) : val < 2 ^ field := small val (List.mem_cons_of_mem _ listed)
    cases push with
    | value val =>
      have fits : val < 2 ^ field := small val List.mem_cons_self
      have pushed := packedValue h val field
      rw [Nat.mod_eq_of_lt fits,← spellSnoc] at pushed
      have lows : ∀ value ∈ now ++ [val], value < 2 ^ field := by
        simpa [or_imp,forall_and] using ⟨low,fits⟩
      have row : Packed before (sb.pushValue val field) (field * (now ++ [val]).length) (spell field (now ++ [val])) := by
        rw [List.length_append,List.length_singleton,Nat.mul_add,Nat.mul_one]
        exact pushed
      exact ih later lows row
    | align =>
      obtain ⟨row,same,reads⟩ := readsRow low h
      have fresh : Packed (row ++ before) sb.pushAlign (field * 0) (spell field []) :=
        packedStart (row ++ before) rfl same
      obtain ⟨bytes,whole,readsRest⟩ := ih later (List.forall_mem_nil _) fresh
      refine ⟨row.reverse ++ bytes,?_,?_⟩
      · rw [← List.append_assoc,← List.reverse_append]
        exact whole
      · exact readsBind reads (readsMap readsRest fun rows => (now.reverse,spent) :: rows)

/- Each row comes back from its last value on, and none of its bits is left. -/
theorem rowsReturned (field : Nat) (pushes : List Push) (small : ∀ val, .value val ∈ pushes → val < 2 ^ field) :
    Reads (recvRows field ((rowsOf pushes).map List.length)) (pushAll field pushes streamBitsPack).toVector
      ((rowsOf pushes).map fun row => (row.reverse,spent)) := by
  have start : Packed [] streamBitsPack (field * 0) (spell field []) := packedStart [] rfl rfl
  obtain ⟨bytes,same,reads⟩ := readsRowsFrom small (List.forall_mem_nil _) start
  rw [same]
  exact reads

theorem rowsReturnedFour :
    (∀ val, Push.value val ∈ [.value 5,.align,.value 15,.value 0,.value 9] → val < 2 ^ 4) ∧
      Reads (recvRows 4 [1,3])
        (pushAll 4 [.value 5,.align,.value 15,.value 0,.value 9] streamBitsPack).toVector
        [([5],spent),([9,0,15],spent)] := by
  have small (val : Nat) (listed : Push.value val ∈ [.value 5,.align,.value 15,.value 0,.value 9]) :
      val < 2 ^ 4 := by
    simp at listed
    omega
  exact ⟨small,rowsReturned 4 [.value 5,.align,.value 15,.value 0,.value 9] small⟩

end Ltsm.PackedRows
