import Ltsm.Library.Batches
import Ltsm.Library.Loops
import Ltsm.DividedRegions

/-! A region is sent to an RDP client in compressed tiles, several in one update as long as
they fit into a request together. -/
namespace Ltsm.PlanarUpdate
open Library Regions Region DividedRegions

/- A value stored in a UINT32 field. -/
def toUInt32 (value : Int) : Nat := (value % 4294967296).toNat

/- A product of ints, as a size_t. -/
def toSizeT (value : Int) : Nat := (value.bmod 4294967296 % 18446744073709551616).toNat

inductive RdpError where
  | alignRegion
  | bitmapPlanarContextNew
  | bitmapPlanarContextReset
  | multifragMaxRequestSize
  | bitmapUpdate
  deriving DecidableEq, Repr

inductive PixelFormat where
  | rgbx32
  | bgrx32
  deriving DecidableEq, Repr

structure BitmapData (S : Type) where
  destLeft : Nat
  destTop : Nat
  destRight : Nat
  destBottom : Nat
  width : Nat
  height : Nat
  bitsPerPixel : Nat
  compressed : Bool
  cbScanWidth : Nat
  cbUncompressedSize : Nat
  cbCompMainBodySize : Nat
  bitmapLength : Nat
  bitmapDataStream : S
  deriving DecidableEq, Repr

/- The reply with the pixels, the settings of the peer, and what the library does: whether it
makes and resets its planar context, what it compresses the pixels from an offset on to (with
the length of that), and whether it accepts an update after those before. -/
structure Context (S : Type) where
  replySize : Nat
  bitsPerPixel : UInt8
  bytePerPixel : UInt8
  osMajorType : UInt32
  multifragMaxRequestSize : UInt32
  planar : Bool
  planarNew : Bool
  planarReset : Bool
  compressPlanar : PixelFormat → Nat → Nat → Nat → Nat → S × UInt32
  bitmapUpdate : List (List (BitmapData S)) → List (BitmapData S) → Bool

def hdrsz : Nat := 34

def tileSize : Size := ⟨64,64⟩

section
variable {S : Type} (c : Context S) (reg : Region)

def Context.pixelFormat : PixelFormat := if c.osMajorType = 6 then .rgbx32 else .bgrx32

def scanLineBytes : Nat := reg.width * c.bytePerPixel.toNat

def planarChecks : Except RdpError Unit :=
  if c.replySize ≠ toSizeT (reg.height * reg.width * c.bytePerPixel.toNat) then .error .alignRegion
  else if !c.planar && !c.planarNew then .error .bitmapPlanarContextNew
  else if !c.planarReset then .error .bitmapPlanarContextReset
  else .ok ()

/- Where the pixels of the tile begin in the reply. -/
def tileOffset (subreg : Region) : Nat :=
  let localX := toInt16 (subreg.x - reg.x)
  let localY := toInt16 (subreg.y - reg.y)
  ((localY * scanLineBytes c reg + localX * c.bytePerPixel.toNat) % 18446744073709551616).toNat

def bitmapData (subreg : Region) : BitmapData S :=
  let stream := c.compressPlanar c.pixelFormat (tileOffset c reg subreg) subreg.width subreg.height (scanLineBytes c reg)
  { destLeft := toUInt32 subreg.x
    destTop := toUInt32 subreg.y
    destRight := toUInt32 (subreg.x + subreg.width - 1)
    destBottom := toUInt32 (subreg.y + subreg.height - 1)
    width := subreg.width
    height := subreg.height
    bitsPerPixel := c.bitsPerPixel.toNat
    compressed := true
    cbScanWidth := subreg.width * c.bytePerPixel.toNat
    cbUncompressedSize := subreg.height * subreg.width * c.bytePerPixel.toNat
    cbCompMainBodySize := stream.2.toNat
    bitmapLength := stream.2.toNat
    bitmapDataStream := stream.1 }

/- The body of a tile with its header. -/
def tileBytes (st : BitmapData S) : Nat := st.cbCompMainBodySize + hdrsz

def planarTile (subreg : Region) : Except RdpError (BitmapData S) :=
  let st := bitmapData c reg subreg
  if c.multifragMaxRequestSize.toNat < tileBytes st then .error .multifragMaxRequestSize else .ok st

def planarTiles : List Region → Except RdpError (List (BitmapData S))
  | [] => .ok []
  | subreg :: rest => do
    let st ← planarTile c reg subreg
    let vec ← planarTiles rest
    .ok (st :: vec)

/- One round of the loop over the tiles, with the updates that have been sent before. -/
def batchRound : List (BitmapData S) × List (List (BitmapData S)) →
    (List (BitmapData S) × List (List (BitmapData S))) ⊕ Except RdpError (List (List (BitmapData S)))
  | ([],sent) => .inr (.ok sent)
  | (vec,sent) =>
    let (batch,left) := takeBatch tileBytes c.multifragMaxRequestSize.toNat 0 vec
    if c.bitmapUpdate sent batch then .inl (left,sent ++ [batch]) else .inr (.error .bitmapUpdate)

/- What the call comes to, with the updates it has sent if it returns. It may come to
nothing. -/
def UpdateBitmapPlanar (outcome : Except RdpError (List (List (BitmapData S)))) : Prop :=
  match planarChecks c reg with
  | .error e => outcome = .error e
  | .ok () =>
    match reg.divideBlocks tileSize with
    | none => False
    | some blocks =>
      match planarTiles c reg blocks with
      | .error e => outcome = .error e
      | .ok vec => Returns (batchRound c) (vec,[]) outcome

/-! What the updates are for. -/

/- The right and bottom edges belong to the rectangle. -/
def BitmapData.Has (st : BitmapData S) (p : Point) : Prop :=
  (st.destLeft : Int) ≤ p.x ∧ p.x ≤ st.destRight ∧ (st.destTop : Int) ≤ p.y ∧ p.y ≤ st.destBottom

structure Batched (batches : List (List (BitmapData S))) : Prop where
  order : ∃ blocks, reg.divideBlocks tileSize = some blocks ∧ batches.flatten = blocks.map (bitmapData c reg)
  filled : ∀ batch ∈ batches, batch ≠ []
  fits : ∀ batch ∈ batches, load tileBytes batch ≤ c.multifragMaxRequestSize.toNat
  apart : batches.flatten.Pairwise fun one other => ∀ p, one.Has p → ¬other.Has p
  covers : ∀ p, reg.Has p ↔ ∃ st ∈ batches.flatten, st.Has p

def UpdatesAll : Prop := ∃ batches, UpdateBitmapPlanar c reg (.ok batches) ∧ Batched c reg batches

end

/- A region that can be cut into tiles, none of them left of or above the corner of the screen. -/
def Tileable (reg : Region) : Prop :=
  reg.height = 0 ∨ (reg.width = 0 ∧ reg.height + Nat.gcd (min 64 reg.height) 65536 ≤ 65536) ∨
    (0 ≤ reg.x ∧ AxisFits reg.x 64 reg.width) ∧ 0 ≤ reg.y ∧ AxisFits reg.y 64 reg.height

instance decidableTileable (reg : Region) : Decidable (Tileable reg) := by unfold Tileable; infer_instance

/-! The loop over the tiles. -/

section
variable {S : Type} {c : Context S} {reg : Region} {vec : List (BitmapData S)}

theorem planarTilesOk {blocks : List Region} (made : planarTiles c reg blocks = .ok vec) :
    vec = blocks.map (bitmapData c reg) ∧ ∀ st ∈ vec, tileBytes st ≤ c.multifragMaxRequestSize.toNat := by
  induction blocks generalizing vec with
  | nil =>
    cases made
    exact ⟨rfl,by simp⟩
  | cons subreg rest ih =>
    rw [planarTiles,planarTile] at made
    by_cases large : c.multifragMaxRequestSize.toNat < tileBytes (bitmapData c reg subreg)
    · rw [if_pos large] at made
      cases made
    · rw [if_neg large] at made
      cases later : planarTiles c reg rest with
      | error e =>
        rw [later] at made
        cases made
      | ok tail =>
        rw [later] at made
        cases made
        obtain ⟨rfl,small⟩ := ih later
        refine ⟨rfl,fun st listed => ?_⟩
        obtain rfl | listed := List.mem_cons.mp listed
        · omega
        · exact small st listed

/- The tiles that have been sent, in updates that are not empty and fit, and those that are left. -/
structure Sending (c : Context S) (vec : List (BitmapData S))
    (s : List (BitmapData S) × List (List (BitmapData S))) : Prop where
  order : s.2.flatten ++ s.1 = vec
  good : ∀ batch ∈ s.2, batch ≠ [] ∧ load tileBytes batch ≤ c.multifragMaxRequestSize.toNat

/- Each update takes a tile at least, as no tile is too large for an update of its own. -/
theorem sendingGoes (small : ∀ st ∈ vec, tileBytes st ≤ c.multifragMaxRequestSize.toNat)
    {s next : List (BitmapData S) × List (List (BitmapData S))} (sending : Sending c vec s)
    (goes : batchRound c s = .inl next) : Sending c vec next ∧ next.1.length < s.1.length := by
  obtain ⟨left,sent⟩ := s
  obtain ⟨order,good⟩ := sending
  cases left with
  | nil => cases goes
  | cons st rest =>
    rw [batchRound] at goes
    · simp only at goes
      split at goes
      · cases goes
        have split : (takeBatch tileBytes c.multifragMaxRequestSize.toNat 0 (st :: rest)).1 ++
          (takeBatch tileBytes c.multifragMaxRequestSize.toNat 0 (st :: rest)).2 = st :: rest := takeBatchSplit
        have some : (takeBatch tileBytes c.multifragMaxRequestSize.toNat 0 (st :: rest)).1 ≠ [] :=
          takeBatchSome (small st (order ▸ List.mem_append_right _ List.mem_cons_self))
        have within : 0 + load tileBytes (takeBatch tileBytes c.multifragMaxRequestSize.toNat 0 (st :: rest)).1 ≤
          c.multifragMaxRequestSize.toNat := takeBatchFits (Nat.zero_le _)
        refine ⟨⟨?_,fun batch listed => ?_⟩,?_⟩
        · rw [← order,List.flatten_append,List.flatten_singleton,List.append_assoc,split]
        · obtain before | last := List.mem_append.mp listed
          · exact good batch before
          · rw [List.mem_singleton.mp last]
            exact ⟨some,by omega⟩
        · have lengths := congrArg List.length split
          have positive := List.length_pos_iff.mpr some
          rw [List.length_append] at lengths
          simp only
          omega
      · cases goes
    · exact nofun

/- All tiles have been sent when the loop is through; otherwise an update has been refused. -/
theorem sendingEnds {s : List (BitmapData S) × List (List (BitmapData S))}
    {outcome : Except RdpError (List (List (BitmapData S)))} (sending : Sending c vec s)
    (ends : batchRound c s = .inr outcome) :
    outcome = .error .bitmapUpdate ∨ ∃ batches, outcome = .ok batches ∧ Sending c vec ([],batches) := by
  obtain ⟨left,sent⟩ := s
  cases left with
  | nil =>
    cases ends
    exact .inr ⟨sent,rfl,sending⟩
  | cons st rest =>
    rw [batchRound] at ends
    · simp only at ends
      split at ends
      · cases ends
      · cases ends
        exact .inl rfl
    · exact nofun

theorem loopReturns (small : ∀ st ∈ vec, tileBytes st ≤ c.multifragMaxRequestSize.toNat) :
    ∃ outcome, Returns (batchRound c) (vec,[]) outcome ∧
      (outcome = .error .bitmapUpdate ∨ ∃ batches, outcome = .ok batches ∧ Sending c vec ([],batches)) := by
  have start : Sending c vec (vec,[]) := ⟨rfl,by simp⟩
  obtain ⟨outcome,returns⟩ := returnsWithin (I := Sending c vec) (fun s => s.1.length)
    (fun s next sending goes => sendingGoes small sending goes) start
  exact ⟨outcome,returns,returnsInvariant (P := fun outcome => outcome = .error .bitmapUpdate ∨
    ∃ batches, outcome = .ok batches ∧ Sending c vec ([],batches))
    (fun s next sending goes => (sendingGoes small sending goes).1)
    (fun s left sending ends => sendingEnds sending ends) start returns⟩

end

/-! The rectangles of the tiles. -/

theorem toUInt32Fits {value : Int} (low : 0 ≤ value) (high : value < 4294967296) : (toUInt32 value : Int) = value := by
  unfold toUInt32
  omega

/- A start behind the last column that can be stored comes out on the other side. -/
theorem toInt16Wraps {value : Int} (low : 32768 ≤ value) (high : value < 98304) : toInt16 value = value - 65536 := by
  have range := Int.bmod_def value 65536
  rw [toInt16]
  split at range <;> omega

/- The columns or rows of a tile, first and last one included. -/
def Reaches (start : Int) (block : Nat × Nat) (n : Nat) : Prop :=
  (toUInt32 (toInt16 (start + block.1)) : Int) ≤ start + n ∧
    start + n ≤ toUInt32 (toInt16 (start + block.1) + block.2 - 1)

/- The tiles of an axis of more than one begin at multiples of their side. -/
theorem axisAligned {length : Nat} {blocks : List (Nat × Nat)} (more : 64 < length)
    (returns : axisBlocks (min 64 length) length 65536 0 = some blocks) :
    ∀ block ∈ blocks, block.1 % 64 = 0 ∧ 0 < block.2 ∧ block.2 ≤ 64 := by
  rw [Nat.min_eq_left (by omega)] at returns
  intro block listed
  have some := (axisFilled (by decide) returns listed).2.1
  obtain ⟨n,_,_,rfl⟩ := axisTrace (by decide) returns
  obtain ⟨i,_,rfl⟩ := List.mem_map.mp listed
  refine ⟨?_,some,Nat.min_le_right _ _⟩
  simp only [axisBlock]
  omega

theorem axisCounted {length : Nat} (some : 0 < length) (small : length < 65536)
    (ends : length + Nat.gcd (min 64 length) 65536 ≤ 65536) :
    blockCount (min 64 length) length * min 64 length < 65536 := by
  have whole := Nat.div_mul_le_self (length + min 64 length - 1) (min 64 length)
  unfold blockCount
  by_cases more : 64 < length
  · rw [Nat.min_eq_left (by omega)] at ends ⊢
    rw [Nat.min_eq_left (by omega)] at whole
    have common : Nat.gcd 64 65536 = 64 := by decide
    omega
  · rw [Nat.min_eq_right (by omega)] at whole ⊢
    have one : (length + length - 1) / length = 1 := Nat.div_eq_of_lt_le (by omega) (by omega)
    rw [one]
    omega

/- Tiles that reach every column begin where it can be stored, and not left of the corner. -/
theorem axisReached {start : Int} {length : Nat} {blocks : List (Nat × Nat)} (low : -32768 ≤ start)
    (high : start < 32768) (some : 0 < length) (small : length < 65536)
    (returns : axisBlocks (min 64 length) length 65536 0 = .some blocks)
    (reached : ∀ n < length, ∃ block ∈ blocks, Reaches start block n) : 0 ≤ start ∧ AxisFits start 64 length := by
  have positive : 0 ≤ start := by
    obtain ⟨block,_,begins,_⟩ := reached 0 some
    omega
  have counted := axisCounted some small (axisEndsIff.mp ⟨blocks,returns⟩)
  refine ⟨positive,counted,fun _ => ?_⟩
  obtain ⟨before,count⟩ : ∃ before, blockCount (min 64 length) length = before + 1 :=
    ⟨_,blockCountNext (by omega) some⟩
  have reach : blockCount (min 64 length) length * min 64 length < length + min 64 length := by
    have whole := Nat.div_mul_le_self (length + min 64 length - 1) (min 64 length)
    unfold blockCount
    omega
  rw [count,Nat.succ_mul] at reach counted ⊢
  by_contra far
  by_cases more : 64 < length
  · rw [Nat.min_eq_left (by omega)] at reach counted far
    -- the last tile begins at a column that no tile reaches
    obtain ⟨block,listed,left,right⟩ := reached (before * 64) (by omega)
    obtain ⟨aligned,wide,narrow⟩ := axisAligned more returns block listed
    have inside := (axisStarts returns).1 block listed
    have ends := axisEndsIff.mp ⟨blocks,returns⟩
    rw [Nat.min_eq_left (by omega),show Nat.gcd 64 65536 = 64 by decide] at ends
    by_cases stored : start + block.1 < 32768
    · rw [toInt16Fits (by omega) stored,toUInt32Fits (by omega) (by omega)] at left
      rw [toInt16Fits (by omega) stored] at right
      rw [toUInt32Fits (by omega) (by omega)] at right
      omega
    · rw [toInt16Wraps (by omega) (by omega)] at left right
      unfold toUInt32 at left right
      omega
  · rw [Nat.min_eq_right (by omega)] at reach far
    have none : before = 0 := by
      by_contra some
      have := Nat.mul_le_mul_right length (Nat.one_le_iff_ne_zero.mpr some)
      omega
    rw [none] at far
    omega

section
variable {S : Type} {c : Context S} {reg : Region}

/- The inclusive rectangle of a tile that is not empty, to the right of and below the corner. -/
theorem bitmapHas {b : Region} {p : Point} (wide : 0 < b.width) (high : 0 < b.height) (left : 0 ≤ b.x) (top : 0 ≤ b.y)
    (right : b.x + b.width < 4294967296) (bottom : b.y + b.height < 4294967296) :
    (bitmapData c reg b).Has p ↔ b.Has p := by
  unfold BitmapData.Has Region.Has bitmapData
  rw [toUInt32Fits left (by omega),toUInt32Fits top (by omega),toUInt32Fits (by omega) (by omega),
    toUInt32Fits (by omega) (by omega)]
  omega

theorem tileableDividable (tileable : Tileable reg) : Dividable reg tileSize := by
  obtain flat | none | ⟨⟨_,across⟩,_,down⟩ := tileable
  · exact .inl flat
  · exact .inr (.inl none)
  · exact .inr (.inr ⟨across,down⟩)

theorem tileableHas (stored : Stored reg) (tileable : Tileable reg) {blocks : List Region}
    (parts : Partition reg tileSize blocks) : ∀ b ∈ blocks, ∀ p, (bitmapData c reg b).Has p ↔ b.Has p := by
  intro b listed p
  obtain ⟨wide,high⟩ := parts.filled b listed
  obtain ⟨left,top,right,bottom⟩ := parts.within b listed
  obtain ⟨_,leftmost⟩ := storedRange stored.left
  obtain ⟨_,topmost⟩ := storedRange stored.top
  have broad := stored.wide
  have tall := stored.high
  obtain flat | ⟨none,_⟩ | ⟨⟨low,_⟩,above,_⟩ := tileable
  · omega
  · omega
  · exact bitmapHas wide high (by omega) (by omega) (by omega) (by omega)

/- What has been sent when the loop is through all tiles of a good division. -/
theorem tilesBatched (stored : Stored reg) (tileable : Tileable reg) {blocks : List Region}
    (divides : reg.divideBlocks tileSize = some blocks) (parts : Partition reg tileSize blocks)
    {batches : List (List (BitmapData S))} (sending : Sending c (blocks.map (bitmapData c reg)) ([],batches)) :
    Batched c reg batches := by
  have same := @tileableHas S c reg stored tileable blocks parts
  have order : batches.flatten = blocks.map (bitmapData c reg) := by
    rw [← sending.order,List.append_nil]
  refine ⟨⟨blocks,divides,order⟩,fun batch listed => (sending.good batch listed).1,
    fun batch listed => (sending.good batch listed).2,?_,fun p => ?_⟩
  · rw [order,List.pairwise_map]
    refine parts.apart.imp_of_mem fun {one other} inOne inOther away p has => ?_
    rw [same other inOther]
    exact away p ((same one inOne p).mp has)
  · rw [order]
    constructor
    · intro has
      obtain ⟨b,listed,inside⟩ := parts.covers p has
      exact ⟨_,List.mem_map_of_mem listed,(same b listed p).mpr inside⟩
    · rintro ⟨st,sent,has⟩
      obtain ⟨b,listed,rfl⟩ := List.mem_map.mp sent
      have inside := (same b listed p).mp has
      obtain ⟨left,top,right,bottom⟩ := parts.within b listed
      unfold Region.Has at inside ⊢
      omega

theorem tileableUpdates (stored : Stored reg) (quiet : ∀ e, ¬UpdateBitmapPlanar c reg (.error e))
    (tileable : Tileable reg) : UpdatesAll c reg := by
  obtain ⟨blocks,divides,parts⟩ := (dividesIff stored (by decide) (by decide)).mpr (tileableDividable tileable)
  unfold UpdateBitmapPlanar at quiet
  unfold UpdatesAll UpdateBitmapPlanar
  cases checked : planarChecks c reg with
  | error e =>
    rw [checked] at quiet
    exact absurd rfl (quiet e)
  | ok =>
    rw [checked] at quiet
    rw [divides] at quiet ⊢
    simp only at quiet ⊢
    cases made : planarTiles c reg blocks with
    | error e =>
      rw [made] at quiet
      exact absurd rfl (quiet e)
    | ok vec =>
      rw [made] at quiet
      simp only at quiet ⊢
      obtain ⟨rfl,small⟩ := planarTilesOk made
      obtain ⟨outcome,returns,rfl | ⟨batches,rfl,sending⟩⟩ := loopReturns small
      · exact absurd returns (quiet _)
      · exact ⟨batches,returns,tilesBatched stored tileable divides parts sending⟩

/- The tiles reach each column of the region in its first row, and each row in its first column. -/
theorem updatesTileable (stored : Stored reg) (updates : UpdatesAll c reg) : Tileable reg := by
  obtain ⟨batches,_,⟨blocks,divides,order⟩,_,_,_,covers⟩ := updates
  by_cases flat : reg.height = 0
  · exact .inl flat
  by_cases none : reg.width = 0
  · exact .inr (.inl ⟨none,(emptyReturns (.inl none)).mp ⟨blocks,divides⟩⟩)
  obtain ⟨rows,cols,down,across,rfl⟩ := dividedInto divides (by omega)
  rw [order] at covers
  have reached (p : Point) (has : reg.Has p) : ∃ row ∈ rows, ∃ col ∈ cols,
      (bitmapData c reg ⟨toInt16 (reg.x + col.1),toInt16 (reg.y + row.1),col.2,row.2⟩).Has p := by
    obtain ⟨st,sent,inside⟩ := (covers p).mp has
    obtain ⟨b,listed,rfl⟩ := List.mem_map.mp sent
    obtain ⟨row,inRows,inRow⟩ := List.mem_flatMap.mp listed
    obtain ⟨col,inCols,rfl⟩ := List.mem_map.mp inRow
    exact ⟨row,inRows,col,inCols,inside⟩
  obtain ⟨left,right⟩ := storedRange stored.left
  obtain ⟨top,bottom⟩ := storedRange stored.top
  refine .inr (.inr ⟨axisReached left right (by omega) stored.wide across fun n within => ?_,
    axisReached top bottom (by omega) stored.high down fun n within => ?_⟩)
  · obtain ⟨row,_,col,listed,begins,ends,_⟩ := reached ⟨reg.x + n,reg.y⟩ (by unfold Region.Has; dsimp only; omega)
    exact ⟨col,listed,begins,ends⟩
  · obtain ⟨row,listed,col,_,_,_,begins,ends⟩ := reached ⟨reg.x,reg.y + n⟩ (by unfold Region.Has; dsimp only; omega)
    exact ⟨row,listed,begins,ends⟩

end

theorem undividedNever {S : Type} {c : Context S} {reg : Region} (checked : planarChecks c reg = .ok ())
    (never : reg.divideBlocks tileSize = none) (outcome : Except RdpError (List (List (BitmapData S)))) :
    ¬UpdateBitmapPlanar c reg outcome := by
  rw [UpdateBitmapPlanar,checked,never]
  exact not_false

/- Nothing is thrown where the reply has the size of the region, the planar context works, no
tile is too large and each update is accepted. -/
theorem acceptedQuiet {S : Type} {c : Context S} {reg : Region} (checked : planarChecks c reg = .ok ())
    (small : ∀ subreg, tileBytes (bitmapData c reg subreg) ≤ c.multifragMaxRequestSize.toNat)
    (accepts : ∀ sent batch, c.bitmapUpdate sent batch = true) (e : RdpError) :
    ¬UpdateBitmapPlanar c reg (.error e) := by
  have made (blocks : List Region) : planarTiles c reg blocks = .ok (blocks.map (bitmapData c reg)) := by
    induction blocks with
    | nil => rfl
    | cons subreg rest ih =>
      rw [planarTiles,planarTile,if_neg (Nat.not_lt.mpr (small subreg)),ih]
      rfl
  intro throws
  rw [UpdateBitmapPlanar,checked] at throws
  cases divided : reg.divideBlocks tileSize with
  | none =>
    rw [divided] at throws
    exact throws
  | some blocks =>
    rw [divided] at throws
    simp only [made] at throws
    refine returnsInvariant (I := fun _ => True) (P := fun outcome => outcome ≠ .error e)
      (fun _ _ _ _ => trivial) (fun s outcome _ ends => ?_) trivial throws rfl
    obtain ⟨left,sent⟩ := s
    cases left with
    | nil =>
      cases ends
      exact nofun
    | cons st rest =>
      rw [batchRound] at ends
      · simp only [accepts,if_true] at ends
        cases ends
      · exact nofun

/- Of the calls that throw nothing, those send all of the region whose region can be cut. -/
theorem updatesIff {S : Type} (c : Context S) (reg : Region) (stored : Stored reg)
    (quiet : ∀ e, ¬UpdateBitmapPlanar c reg (.error e)) : UpdatesAll c reg ↔ Tileable reg :=
  ⟨updatesTileable stored,tileableUpdates stored quiet⟩

/-! A reply as large as asked for, and tiles that come to fifty bytes each. -/

def plainContext (replySize : Nat) : Context Unit :=
  ⟨replySize,24,4,6,100,true,true,true,fun _ _ _ _ _ => ((),50),fun _ _ => true⟩

theorem plainQuiet {replySize : Nat} {reg : Region} (sized : replySize = toSizeT (reg.height * reg.width * 4))
    (e : RdpError) : ¬UpdateBitmapPlanar (plainContext replySize) reg (.error e) := by
  refine acceptedQuiet ?_ (fun subreg => ?_) (fun _ _ => rfl) e
  · have same : (plainContext replySize).replySize =
        toSizeT (reg.height * reg.width * (plainContext replySize).bytePerPixel.toNat) := sized
    rw [planarChecks,if_neg (not_not.mpr same)]
    rfl
  · exact Nat.le_of_ble_eq_true rfl

theorem updatesTwoTiles : Tileable ⟨10,20,100,2⟩ ∧ UpdatesAll (plainContext 800) ⟨10,20,100,2⟩ := by
  have tileable : Tileable ⟨10,20,100,2⟩ := by decide
  exact ⟨tileable,(updatesIff (plainContext 800) ⟨10,20,100,2⟩ (by decide) (plainQuiet (by decide))).mpr tileable⟩

/- The counter over 65535 columns comes back to zero. -/
theorem widestTilesNeverEnd : (∀ outcome, ¬UpdateBitmapPlanar (plainContext 262140) ⟨0,0,65535,1⟩ outcome) ∧
    ¬∀ (c : Context Unit) (reg : Region), Stored reg → (∀ e, ¬UpdateBitmapPlanar c reg (.error e)) →
      UpdatesAll c reg := by
  have quiet : ∀ e, ¬UpdateBitmapPlanar (plainContext 262140) ⟨0,0,65535,1⟩ (.error e) := plainQuiet (by decide)
  have untileable : ¬Tileable ⟨0,0,65535,1⟩ := by decide
  have never : (⟨0,0,65535,1⟩ : Region).divideBlocks tileSize = none := by
    by_contra some
    obtain ⟨blocks,divides⟩ := Option.ne_none_iff_exists'.mp some
    obtain ⟨_,cols,_,across,_⟩ := dividedInto divides (by decide)
    have room := axisEndsIff.mp ⟨cols,across⟩
    revert room
    decide
  exact ⟨undividedNever rfl never,fun all => untileable (updatesTileable (by decide) (all _ _ (by decide) quiet))⟩

end Ltsm.PlanarUpdate
