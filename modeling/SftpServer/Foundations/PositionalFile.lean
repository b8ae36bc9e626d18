import Mathlib.Data.List.Basic
import Mathlib.Data.List.Pairwise
import Mathlib.Order.Lattice

/-! Files that are read and written at offsets. A write past the end fills the gap; whether
a write of nothing does so too is up to the file system (`pads`). Writes that do not
overlap commute, and change what a reader beside them sees only through the file's length.
The pieces of a file can therefore be written in any order.
-/

namespace SftpServer.Foundations

variable {β : Type}

/-- How far a write of `length` items at `off` makes a file reach. -/
def reach (pads : Bool) (off length : Nat) : Nat :=
  if length = 0 ∧ pads = false then 0 else off + length

/-- The file after `data` is stored at `off`, the gap before it filled with `fill`. -/
def writeAt (pads : Bool) (fill : β) (old : List β) (off : Nat) (data : List β) : List β :=
  if data.length = 0 ∧ pads = false then old
  else
    let buf := old ++ List.replicate (off + data.length - old.length) fill
    buf.take off ++ data ++ buf.drop (off + data.length)

/-- What a reader of `n` items at `off` is given. -/
def window (file : List β) (off n : Nat) : List β :=
  (file.drop off).take n

/-- The file cut, or filled up, to a length. -/
def resize (fill : β) (old : List β) (size : Nat) : List β :=
  (old ++ List.replicate (size - old.length) fill).take size

/-- The ranges `[off, off + length)` have a position in common. -/
def overlap (off length off' length' : Nat) : Bool :=
  max off off' < min (off + length) (off' + length')

variable {pads : Bool} {fill : β} {old data : List β} {off q : Nat}

theorem lt_reach {length : Nat} (inside : off ≤ q ∧ q < off + length)
    : q < reach pads off length := by
  unfold reach
  split <;> omega

@[simp]
theorem length_writeAt
    : (writeAt pads fill old off data).length = max old.length (reach pads off data.length) := by
  unfold writeAt reach
  split
  · simp
  · simp
    omega

/-- A list padded at its end, position by position. -/
theorem getElem?_padded (fill : β) (old : List β) (n q : Nat)
    : (old ++ List.replicate n fill)[q]?
      = if q < old.length + n then some (old.getD q fill) else none := by
  grind

/-- A list overwritten in the middle, position by position. -/
theorem getElem?_overwritten {buf : List β} (wide : off + data.length ≤ buf.length) (q : Nat)
    : (buf.take off ++ data ++ buf.drop (off + data.length))[q]?
      = if off ≤ q ∧ q < off + data.length then data[q - off]? else buf[q]? := by
  -- A position lies in the part kept in front, in the data, or in the part kept behind.
  rcases lt_or_ge q off with before | after
  · grind
  rcases lt_or_ge q (off + data.length) with inside | beyond
  · grind
  · have skip : off + data.length + (q - (off + data.length)) = q := by omega
    have front : (buf.take off ++ data).length = off + data.length := by
      simp
      omega
    rw [List.getElem?_append_right (by omega), front, List.getElem?_drop, skip,
      if_neg (by omega)]

/-- A file after a write, position by position. -/
theorem getElem?_writeAt
    : (writeAt pads fill old off data)[q]?
      = if off ≤ q ∧ q < off + data.length then data[q - off]?
        else if q < max old.length (reach pads off data.length) then some (old.getD q fill)
        else none := by
  unfold writeAt reach
  split
  · grind
  · have wide : old.length + (off + data.length - old.length)
        = max old.length (off + data.length) := by
      omega
    rw [getElem?_overwritten (by simp; omega), getElem?_padded, wide]

/-- Writes that do not overlap commute: every position is written by one of them at most. -/
theorem writeAt_comm {data' : List β} {off' : Nat}
    (apart : overlap off data.length off' data'.length = false)
    : writeAt pads fill (writeAt pads fill old off data) off' data'
      = writeAt pads fill (writeAt pads fill old off' data') off data := by
  simp only [overlap, decide_eq_false_iff_not] at apart
  apply List.ext_getElem?
  intro q
  -- A position inside a write is below its reach, whether or not empty writes pad.
  have first : off ≤ q ∧ q < off + data.length → q < reach pads off data.length := lt_reach
  have second : off' ≤ q ∧ q < off' + data'.length → q < reach pads off' data'.length :=
    lt_reach
  simp only [getElem?_writeAt, List.getD_eq_getElem?_getD, length_writeAt]
  grind

/-- A write appends exactly if it is at the end, or is of nothing and does not pad. -/
theorem writeAt_eq_append_iff
    : writeAt pads fill old off data = old ++ data
      ↔ off = old.length ∨ data = [] ∧ (pads = false ∨ off ≤ old.length) := by
  constructor
  · intro appended
    have lengths := congrArg List.length appended
    rw [length_writeAt, List.length_append] at lengths
    by_cases empty : data = []
    · refine .inr ⟨empty, ?_⟩
      cases pads with
      | false => exact .inl rfl
      | true => exact .inr (by simpa [empty, reach] using lengths)
    · have some : data.length ≠ 0 := by simpa using empty
      simp only [reach, some, false_and, if_false] at lengths
      exact .inl (by omega)
  · intro atEnd
    apply List.ext_getElem?
    intro q
    rw [getElem?_writeAt, reach]
    grind

/-- Whether writes of nothing pad matters only to those past the end. -/
theorem writeAt_padding_iff
    : writeAt true fill old off data = writeAt false fill old off data
      ↔ data ≠ [] ∨ off ≤ old.length := by
  by_cases empty : data = []
  · subst empty
    have same : writeAt false fill old off [] = old := by simp [writeAt]
    have appends := @writeAt_eq_append_iff _ true fill old [] off
    rw [List.append_nil] at appends
    rw [same, appends]
    simp
    omega
  · have some : data.length ≠ 0 := by simpa using empty
    simp [writeAt, some, empty]

@[simp]
theorem length_resize (size : Nat) : (resize fill old size).length = size := by
  simp [resize]
  omega

theorem getElem?_resize (size : Nat)
    : (resize fill old size)[q]? = if q < size then some (old.getD q fill) else none := by
  rw [resize, List.getElem?_take, getElem?_padded]
  grind

/-- A write into a file that was given its final length first is a write that pads. -/
theorem writeAt_grown
    : writeAt false fill
          (if old.length < off + data.length then resize fill old (off + data.length) else old)
          off data
      = writeAt true fill old off data := by
  by_cases grows : old.length < off + data.length
  · rw [if_pos grows]
    apply List.ext_getElem?
    intro q
    simp only [getElem?_writeAt, length_resize, List.getD_eq_getElem?_getD, getElem?_resize, reach]
    grind
  · rw [if_neg grows]
    exact (writeAt_padding_iff.mpr (.inr (by omega))).symm

theorem length_window (file : List β) (off n : Nat)
    : (window file off n).length = min file.length (off + n) - off := by
  simp [window]
  omega

theorem window_eq_nil_iff {file : List β} {n : Nat}
    : window file off n = [] ↔ n = 0 ∨ file.length ≤ off := by
  simp [window]

/-- A reader that goes on where it stopped. -/
theorem take_append_window (file : List β) (off n : Nat)
    : file.take off ++ window file off n = file.take (off + n) :=
  List.take_add.symm

/-- A write beside a reader's range that makes the file reach no further into it. -/
theorem window_writeAt {n off' : Nat} (apart : overlap off' n off data.length = false)
    (short : min (reach pads off data.length) (off' + n) ≤ max off' old.length)
    : window (writeAt pads fill old off data) off' n = window old off' n := by
  simp only [overlap, decide_eq_false_iff_not] at apart
  apply List.ext_getElem?
  intro q
  simp only [window, List.getElem?_take, List.getElem?_drop, getElem?_writeAt]
  grind

-----------------------------------------------------------------------------------------
-- A file in pieces
-----------------------------------------------------------------------------------------

/-- The pieces of a file with their offsets, the first of them at `off`. -/
def placed : Nat → List (List β) → List (Nat × List β)
  | _, [] => []
  | off, piece :: rest => (off, piece) :: placed (off + piece.length) rest

/-- The file after these writes, one after the other. -/
def writeAll (pads : Bool) (fill : β) : List β → List (Nat × List β) → List β :=
  List.foldl fun file write => writeAt pads fill file write.1 write.2

theorem le_of_mem_placed {pieces : List (List β)} {write : Nat × List β}
    (member : write ∈ placed off pieces)
    : off ≤ write.1 := by
  induction pieces generalizing off with
  | nil => cases member
  | cons piece rest ih =>
      rcases List.mem_cons.mp member with rfl | later
      · exact le_rfl
      · exact (Nat.le_add_right _ _).trans (ih later)

/-- No two pieces overlap, by induction on them. -/
theorem placed_apart (off : Nat) (pieces : List (List β))
    : (placed off pieces).Pairwise fun a b =>
        overlap a.1 a.2.length b.1 b.2.length = false := by
  induction pieces generalizing off with
  | nil => exact .nil
  | cons piece rest ih =>
      refine .cons (fun write member => ?_) (ih _)
      have after := le_of_mem_placed member
      simp only [overlap, decide_eq_false_iff_not]
      omega

/-- Pieces that are written in order are appended, by induction on them. -/
theorem writeAll_placed (old : List β) (pieces : List (List β))
    : writeAll pads fill old (placed old.length pieces) = old ++ pieces.flatten := by
  induction pieces generalizing old with
  | nil => simp [writeAll, placed]
  | cons piece rest ih =>
      have appended : writeAt pads fill old old.length piece = old ++ piece :=
        writeAt_eq_append_iff.mpr (.inl rfl)
      have later := ih (old ++ piece)
      rw [List.length_append] at later
      simp only [writeAll, placed, List.foldl_cons, appended] at later ⊢
      rw [later, List.flatten_cons, List.append_assoc]

/-- Every write is at the end of what there is then, or is of nothing and does not pad. -/
def AtEnd (pads : Bool) : Nat → List (Nat × List β) → Prop
  | _, [] => True
  | size, write :: rest =>
      (write.1 = size ∨ write.2 = [] ∧ (pads = false ∨ write.1 ≤ size))
      ∧ AtEnd pads (size + write.2.length) rest

/-- Each of the writes appends exactly if they are all at the end, by induction on them. -/
theorem writeAll_appends_iff {writes : List (Nat × List β)}
    : (∀ k, writeAll pads fill old (writes.take k)
          = old ++ ((writes.take k).map Prod.snd).flatten)
      ↔ AtEnd pads old.length writes := by
  induction writes generalizing old with
  | nil => simp [writeAll, AtEnd]
  | cons write rest ih =>
      have appends := @writeAt_eq_append_iff _ pads fill old write.2 write.1
      have later := @ih (old ++ write.2)
      rw [List.length_append] at later
      rw [AtEnd, ← later, ← appends]
      constructor
      · intro all
        have first : writeAt pads fill old write.1 write.2 = old ++ write.2 := by
          simpa [writeAll] using all 1
        refine ⟨first, fun k => ?_⟩
        simpa [writeAll, first] using all (k + 1)
      · intro both k
        obtain ⟨first, all⟩ := both
        cases k with
        | zero => simp [writeAll]
        | succ k => simpa [writeAll, first] using all k

/-- Pieces can be written in any order: each pair of them commutes. -/
theorem writeAll_perm {order : List (Nat × List β)} {pieces : List (List β)}
    (permuted : order.Perm (placed old.length pieces))
    : writeAll pads fill old order = old ++ pieces.flatten := by
  have apart := placed_apart old.length pieces
  have commute {a b : Nat × List β} (first : a ∈ placed old.length pieces)
      (second : b ∈ placed old.length pieces) (file : List β)
      : writeAt pads fill (writeAt pads fill file a.1 a.2) b.1 b.2
        = writeAt pads fill (writeAt pads fill file b.1 b.2) a.1 a.2 := by
    refine List.Pairwise.forall_of_forall_of_flip (R := fun a b =>
      writeAt pads fill (writeAt pads fill file a.1 a.2) b.1 b.2
        = writeAt pads fill (writeAt pads fill file b.1 b.2) a.1 a.2) ?_ ?_ ?_ first second
    · exact fun _ _ => rfl
    · exact apart.imp writeAt_comm
    · exact apart.imp fun free => (writeAt_comm free).symm
  rw [← writeAll_placed]
  exact permuted.foldl_eq' (fun a first b second file =>
    commute (permuted.subset first) (permuted.subset second) file) old

end SftpServer.Foundations
