import SftpServer.Foundations.Ticking
import SftpServer.Wire.Fields

/-! The decoder's cursor. Whatever is decoded, in whatever order and after whatever failed, the
offset stays inside the buffer and does not go back, no slice is out of range, and the loops of
the decoders are bounded.
-/

namespace SftpServer.Wire

open SftpServer.Foundations
open Ticked

/-- A call of a decoder's method. -/
inductive Call where
  | setLimit (n : Int)
  | byte
  | uint32
  | uint64
  | int64
  | blob
  | string
  | done
  deriving DecidableEq, Repr

/-- What a call returns. -/
inductive Decoded where
  | nothing
  | byte (v : UInt8)
  | uint32 (v : UInt32)
  | uint64 (v : UInt64)
  | int64 (v : Int64)
  | bytes (b : Bytes)

def Call.perform : Call → Decode Decoded
  | .setLimit n => fun d => (.ok .nothing, d.setLimit n)
  | .byte => .byte <$> Decode.byte
  | .uint32 => .uint32 <$> Decode.uint32
  | .uint64 => .uint64 <$> Decode.uint64
  | .int64 => .int64 <$> Decode.int64
  | .blob => .bytes <$> Decode.blob
  | .string => .bytes <$> Decode.string
  | .done => (fun _ => .nothing) <$> Decode.done

/-- The decoder after some calls, whichever of them failed. -/
def Decoder.after (d : Decoder) : List Call → Decoder
  | [] => d
  | call :: calls => (call.perform d).2.after calls

-----------------------------------------------------------------------------------------
-- The same calls, with Go's slices
-----------------------------------------------------------------------------------------

/-- `b[lo:hi]`, where `none` is a panic. -/
def slice (b : Bytes) (lo hi : Nat) : Option Bytes :=
  if lo ≤ hi ∧ hi ≤ b.length then some ((b.take hi).drop lo) else none

/-- `binary.BigEndian`, which panics on fewer bytes than it reads. -/
def bigEndian (width : Nat) (b : Bytes) : Option Nat :=
  if width ≤ b.length then some (BigEndian.decode (b.take width)) else none

namespace Decoder

variable (d : Decoder)

def sliceByte : Option (Except WireError UInt8 × Decoder) :=
  if d.remaining < 1 then some (.error .errShort, d)
  else do
    let v ← d.buf[d.off]?
    some (.ok v, { d with off := d.off + 1 })

def sliceUint32 : Option (Except WireError UInt32 × Decoder) :=
  if d.remaining < 4 then some (.error .errShort, d)
  else do
    let rest ← slice d.buf d.off d.buf.length
    let v ← bigEndian 4 rest
    some (.ok (UInt32.ofNat v), { d with off := d.off + 4 })

def sliceUint64 : Option (Except WireError UInt64 × Decoder) :=
  if d.remaining < 8 then some (.error .errShort, d)
  else do
    let rest ← slice d.buf d.off d.buf.length
    let v ← bigEndian 8 rest
    some (.ok (UInt64.ofNat v), { d with off := d.off + 8 })

def sliceBlob : Option (Except WireError Bytes × Decoder) := do
  match ← d.sliceUint32 with
  | (.error err, d) => some (.error err, d)
  | (.ok n, d) =>
      if d.cap < n.toNat then some (.error .errLimit, d)
      else if d.remaining < n.toNat then some (.error .errShort, d)
      else do
        let out ← slice d.buf d.off (d.off + n.toNat)
        some (.ok out, { d with off := d.off + n.toNat })

end Decoder

/-- The outcome of a call with its value renamed. -/
def outcome {α : Type} (wrap : α → Decoded)
    : Except WireError α × Decoder → Except WireError Decoded × Decoder
  | (.ok value, d) => (.ok (wrap value), d)
  | (.error err, d) => (.error err, d)

/-- A call as the source makes it; `none` is a panic. -/
def Call.slices (call : Call) (d : Decoder) : Option (Except WireError Decoded × Decoder) :=
  match call with
  | .setLimit n => some (.ok .nothing, d.setLimit n)
  | .byte => d.sliceByte.map (outcome .byte)
  | .uint32 => d.sliceUint32.map (outcome .uint32)
  | .uint64 => d.sliceUint64.map (outcome .uint64)
  | .int64 => d.sliceUint64.map (outcome fun v => .int64 v.toInt64)
  | .blob => d.sliceBlob.map (outcome .bytes)
  | .string => d.sliceBlob.map (outcome .bytes)
  | .done => some (outcome (fun _ => .nothing) (Decode.done d))

section

variable {d : Decoder}

theorem map_eq {α : Type} (wrap : α → Decoded) (decode : Decode α) (d : Decoder)
    : (wrap <$> decode) d = outcome wrap (decode d) := by
  rw [map_eq_pure_bind, Fallible.bind_eq]
  rcases decode d with ⟨err | value, later⟩
  · rfl
  · rfl

theorem slice_rest (within : d.off ≤ d.buf.length)
    : slice d.buf d.off d.buf.length = some d.rest := by
  rw [slice, if_pos ⟨within, Nat.le_refl _⟩, List.take_length, Decoder.rest]

theorem bigEndian_rest {width : Nat} (enough : ¬d.remaining < width)
    : bigEndian width d.rest = some (BigEndian.decode (d.rest.take width)) := by
  have length : width ≤ d.rest.length := by
    rw [Decoder.rest, List.length_drop]
    unfold Decoder.remaining at enough
    omega
  rw [bigEndian, if_pos length]

theorem sliceByte_eq : d.sliceByte = some (Decode.byte d) := by
  unfold Decoder.sliceByte Decode.byte
  split
  · rfl
  · rename_i enough
    unfold Decoder.remaining at enough
    have inside : d.off < d.buf.length := by omega
    rw [List.getElem?_eq_getElem inside]
    simp [Decoder.rest, List.headD_eq_head?_getD, List.head?_drop, inside]

theorem sliceUint32_eq (within : d.off ≤ d.buf.length)
    : d.sliceUint32 = some (Decode.uint32 d) := by
  unfold Decoder.sliceUint32 Decode.uint32
  split
  · rfl
  · rename_i enough
    rw [slice_rest within, Option.bind_eq_bind, Option.bind_some, bigEndian_rest enough]
    rfl

theorem sliceUint64_eq (within : d.off ≤ d.buf.length)
    : d.sliceUint64 = some (Decode.uint64 d) := by
  unfold Decoder.sliceUint64 Decode.uint64
  split
  · rfl
  · rename_i enough
    rw [slice_rest within, Option.bind_eq_bind, Option.bind_some, bigEndian_rest enough]
    rfl

/-- A decoder that was moved: over the same bytes, not back and not beyond their end. -/
structure Moves (d later : Decoder) : Prop where
  buf : later.buf = d.buf
  forward : d.off ≤ later.off
  within : later.off ≤ later.buf.length

theorem Moves.trans {later last : Decoder} (first : Moves d later) (second : Moves later last)
    : Moves d last :=
  ⟨second.buf.trans first.buf, first.forward.trans second.forward, second.within⟩

theorem Moves.refl (within : d.off ≤ d.buf.length) : Moves d d :=
  ⟨rfl, Nat.le_refl _, within⟩

/-- As far as there are bytes left. -/
theorem Moves.by {n : Nat} (enough : ¬d.remaining < n)
    : Moves d { d with off := d.off + n } := by
  unfold Decoder.remaining at enough
  exact ⟨rfl, Nat.le_add_right _ _, by dsimp only; omega⟩

theorem byte_moves (within : d.off ≤ d.buf.length) : Moves d (Decode.byte d).2 := by
  unfold Decode.byte
  split
  · exact .refl within
  · exact .by ‹_›

theorem uint32_moves (within : d.off ≤ d.buf.length) : Moves d (Decode.uint32 d).2 := by
  unfold Decode.uint32
  split
  · exact .refl within
  · exact .by ‹_›

theorem uint64_moves (within : d.off ≤ d.buf.length) : Moves d (Decode.uint64 d).2 := by
  unfold Decode.uint64
  split
  · exact .refl within
  · exact .by ‹_›

theorem take_moves (n : Nat) (within : d.off ≤ d.buf.length) : Moves d (Decode.take n d).2 := by
  unfold Decode.take
  split
  · exact .refl within
  split
  · exact .refl within
  · exact .by ‹_›

/-- A blob is a length and as many bytes, or the length alone when it is refused. -/
theorem blob_eq (d : Decoder)
    : Decode.blob d
      = match Decode.uint32 d with
        | (.ok n, later) => Decode.take n.toNat later
        | (.error err, later) => (.error err, later) := by
  rw [Decode.blob, Fallible.bind_eq]
  rcases Decode.uint32 d with ⟨err | n, later⟩
  · rfl
  · rfl

theorem blob_moves (within : d.off ≤ d.buf.length) : Moves d (Decode.blob d).2 := by
  have counted := uint32_moves within
  rw [blob_eq]
  rcases read : Decode.uint32 d with ⟨err | n, later⟩
  · rwa [read] at counted
  · rw [read] at counted
    exact counted.trans (take_moves n.toNat counted.within)

theorem slice_take {n : Nat} (enough : ¬d.remaining < n)
    : slice d.buf d.off (d.off + n) = some (d.rest.take n) := by
  unfold Decoder.remaining at enough
  rw [slice, if_pos ⟨Nat.le_add_right _ _, by omega⟩, List.drop_take, Nat.add_sub_cancel_left,
    Decoder.rest]

theorem sliceBlob_eq (within : d.off ≤ d.buf.length)
    : d.sliceBlob = some (Decode.blob d) := by
  rw [Decoder.sliceBlob, sliceUint32_eq within, blob_eq]
  rcases Decode.uint32 d with ⟨err | n, later⟩
  · rfl
  simp only [Option.bind_eq_bind, Option.bind_some, Decode.take]
  split
  · rfl
  split
  · rfl
  · rename_i enough
    rw [slice_take enough]
    rfl

/-- No longer than the limit in force, nor than what follows its length. -/
theorem length_blob {b : Bytes} {later : Decoder}
    (ok : Decode.blob d = (.ok b, later))
    : b.length ≤ d.cap ∧ d.off + 4 + b.length ≤ d.buf.length := by
  obtain ⟨n, middle, counted, taken⟩ := Decode.bind_inv ok
  have same : middle = { d with off := d.off + 4 } := by
    unfold Decode.uint32 at counted
    split at counted
    · cases counted
    · exact (Prod.mk.inj counted).2.symm
  subst middle
  unfold Decode.take at taken
  split at taken
  · cases taken
  split at taken
  · cases taken
  rename_i small enough
  cases taken
  unfold Decoder.remaining at enough
  dsimp only at enough
  have cut := List.length_take_le n.toNat (Decoder.rest { d with off := d.off + 4 })
  have cap : Decoder.cap { d with off := d.off + 4 } = d.cap := rfl
  omega

end

-----------------------------------------------------------------------------------------
-- Any calls
-----------------------------------------------------------------------------------------

section

variable {d : Decoder}

theorem outcome_snd {α : Type} (wrap : α → Decoded) (result : Except WireError α × Decoder)
    : (outcome wrap result).2 = result.2 := by
  rcases result with ⟨err | value, later⟩
  · rfl
  · rfl

theorem outcome_ok {α : Type} {wrap : α → Decoded} {result : Except WireError α × Decoder}
    {value : Decoded} (returns : (outcome wrap result).1 = .ok value)
    : ∃ inner later, result = (.ok inner, later) ∧ wrap inner = value := by
  rcases result with ⟨err | inner, later⟩
  · exact nomatch returns
  · exact ⟨inner, later, rfl, Except.ok.inj returns⟩

theorem Call.moves (call : Call) (within : d.off ≤ d.buf.length)
    : Moves d (call.perform d).2 := by
  have int64 : (Decode.int64 d).2 = (Decode.uint64 d).2 := by
    rw [Decode.int64, Fallible.bind_eq]
    rcases Decode.uint64 d with ⟨err | v, later⟩
    · rfl
    · rfl
  have done : (Decode.done d).2 = d := by
    unfold Decode.done
    split
    · rfl
    · rfl
  cases call with
  | setLimit n => exact ⟨rfl, Nat.le_refl _, within⟩
  | byte => rw [perform, map_eq, outcome_snd]; exact byte_moves within
  | uint32 => rw [perform, map_eq, outcome_snd]; exact uint32_moves within
  | uint64 => rw [perform, map_eq, outcome_snd]; exact uint64_moves within
  | int64 => rw [perform, map_eq, outcome_snd, int64]; exact uint64_moves within
  | blob => rw [perform, map_eq, outcome_snd]; exact blob_moves within
  | string => rw [perform, map_eq, outcome_snd]; exact blob_moves within
  | done => rw [perform, map_eq, outcome_snd, done]; exact .refl within

/-- No call panics. -/
theorem Call.slices_eq (call : Call) (within : d.off ≤ d.buf.length)
    : call.slices d = some (call.perform d) := by
  cases call with
  | setLimit n => rfl
  | byte => rw [slices, sliceByte_eq, perform, map_eq]; rfl
  | uint32 => rw [slices, sliceUint32_eq within, perform, map_eq]; rfl
  | uint64 => rw [slices, sliceUint64_eq within, perform, map_eq]; rfl
  | int64 =>
      rw [slices, sliceUint64_eq within, perform, map_eq, Decode.int64, Fallible.bind_eq]
      rcases Decode.uint64 d with ⟨err | v, later⟩
      · rfl
      · rfl
  | blob => rw [slices, sliceBlob_eq within, perform, map_eq]; rfl
  | string => rw [slices, sliceBlob_eq within, perform, map_eq]; rfl
  | done => rw [slices, perform, map_eq]

theorem Call.length_bytes {call : Call} {b : Bytes}
    (returns : (call.perform d).1 = .ok (.bytes b))
    : b.length ≤ d.cap ∧ d.off + 4 + b.length ≤ d.buf.length := by
  cases call with
  | setLimit n => exact nomatch returns
  | byte | uint32 | uint64 | int64 | done =>
      rw [perform, map_eq] at returns
      obtain ⟨_, _, _, same⟩ := outcome_ok returns
      exact nomatch same
  | blob | string =>
      rw [perform, map_eq] at returns
      obtain ⟨_, later, decoded, same⟩ := outcome_ok returns
      cases same
      exact length_blob decoded

/-- By induction on the calls. -/
theorem after_moves (calls : List Call) (within : d.off ≤ d.buf.length)
    : Moves d (d.after calls) := by
  induction calls generalizing d with
  | nil => exact .refl within
  | cons call calls ih =>
      have first := call.moves within
      exact first.trans (ih first.within)

end

-----------------------------------------------------------------------------------------
-- Loops
-----------------------------------------------------------------------------------------

/-- Decoding that counts how often it enters the body of its loop. -/
abbrev CountedDecode := Ticked Decoder WireError

/-- `for range n`. -/
def countedTicked {α : Type} (item : Decode α) : Nat → CountedDecode (List α)
  | 0 => pure []
  | n + 1 => do
      tick
      let first ← lift item
      let others ← countedTicked item n
      pure (first :: others)

/-- `for d.Remaining() > 0`, whose body begins with the check of the limit. -/
def pairsTicked : (room : Nat) → CountedDecode (List ExtendedPair)
  | 0 => do
      let left ← lift Decode.remaining
      if 0 < left then do
        tick
        throw .errLimit
      else pure []
  | room + 1 => do
      let left ← lift Decode.remaining
      if 0 < left then do
        tick
        let first ← lift decodePair
        let others ← pairsTicked room
        pure (first :: others)
      else pure []

def initTicked : CountedDecode InitRequest := do
  let version ← lift Decode.uint32
  let extensions ← pairsTicked maxExtendedPairs
  pure { version, extensions }

def flaggedTicked {α : Type} (present : Bool) (zero : α) (field : CountedDecode α)
    : CountedDecode α :=
  if present then field else pure zero

def attributesTicked : CountedDecode Attributes := do
  let flags ← lift Decode.uint32
  let a : Attributes := { flags }
  let size ← lift (decodeFlagged (a.has attrSize) 0 Decode.uint64)
  let uid ← lift (decodeFlagged (a.has attrUIDGID) 0 Decode.uint32)
  let gid ← lift (decodeFlagged (a.has attrUIDGID) 0 Decode.uint32)
  let permissions ← lift (decodeFlagged (a.has attrPermissions) 0 Decode.uint32)
  let atime ← lift (decodeFlagged (a.has attrACModTime) 0 Decode.uint32)
  let mtime ← lift (decodeFlagged (a.has attrACModTime) 0 Decode.uint32)
  let extended ← flaggedTicked (a.has attrExtended) [] do
    let n ← lift Decode.uint32
    if maxExtendedPairs < n.toNat then throw .errLimit
    else countedTicked decodePair n.toNat
  pure { flags, size, uid, gid, permissions, atime, mtime, extended }

def nameTicked : CountedDecode NameReply := do
  let id ← lift Decode.uint32
  let n ← lift Decode.uint32
  if maxNameItems < n.toNat then throw .errLimit
  else do
    let items ← countedTicked decodeItem n.toNat
    lift Decode.done
    pure { id, items }

theorem countedTicked_times {α : Type} (item : Decode α) (n : Nat)
    : Times (countedTicked item n) (decodeCounted item n) n := by
  induction n with
  | zero => exact .pure []
  | succ n ih =>
      refine .tick (.lift fun first => ?_)
      exact ih.ending fun others => .pure (first :: others)

/-- The last time the body is entered it only refuses. -/
theorem pairsTicked_times (room : Nat)
    : Times (pairsTicked room) (decodePairs room) (room + 1) := by
  induction room with
  | zero =>
      refine .lift fun left => .ite (fun _ => ?_) fun _ => ?_
      · exact .tick (.throw WireError.errLimit)
      · exact (Times.pure []).mono (Nat.zero_le _)
  | succ room ih =>
      refine .lift fun left => .ite (fun _ => ?_) fun _ => ?_
      · refine .tick (.lift fun first => ?_)
        exact ih.ending fun others => .pure (first :: others)
      · exact (Times.pure []).mono (Nat.zero_le _)

/-- The decoder of INIT, before its payload is given. -/
theorem initTicked_times
    : Times initTicked (do
        let version ← Decode.uint32
        let extensions ← decodePairs maxExtendedPairs
        pure { version, extensions }) (maxExtendedPairs + 1) := by
  refine .lift fun version => ?_
  exact (pairsTicked_times maxExtendedPairs).ending fun extensions => .pure _

theorem flagged_times {α : Type} {present : Bool} {zero : α} {timed : CountedDecode α}
    {field : Decode α} {bound : Nat} (times : Times timed field bound)
    : Times (flaggedTicked present zero timed) (decodeFlagged present zero field) bound :=
  .ite (fun _ => times) fun _ => (Times.pure zero).mono (Nat.zero_le _)

/-- A count beyond the limit is refused before the loop. -/
theorem refused_times {α : Type} (item : Decode α) (limit n : Nat)
    : Times (if limit < n then throw .errLimit else countedTicked item n)
        (if limit < n then throw .errLimit else decodeCounted item n) limit := by
  refine .ite (fun _ => ?_) fun few => ?_
  · exact (Times.throw WireError.errLimit).mono (Nat.zero_le _)
  · exact (countedTicked_times item n).mono (Nat.le_of_not_lt few)

theorem attributesTicked_times
    : Times attributesTicked decodeAttributes maxExtendedPairs := by
  refine .lift fun flags => ?_
  refine .lift fun size => .lift fun uid => .lift fun gid => ?_
  refine .lift fun permissions => .lift fun atime => .lift fun mtime => ?_
  refine (flagged_times (.lift fun n => ?_)).ending fun extended => .pure _
  exact refused_times decodePair maxExtendedPairs n.toNat

theorem nameTicked_times
    : Times nameTicked (do
        let id ← Decode.uint32
        let n ← Decode.uint32
        if maxNameItems < n.toNat then throw .errLimit
        else do
          let items ← decodeCounted decodeItem n.toNat
          Decode.done
          pure { id, items }) maxNameItems := by
  refine .lift fun id => .lift fun n => .ite (fun _ => ?_) fun few => ?_
  · exact (Times.throw WireError.errLimit).mono (Nat.zero_le _)
  · refine ((countedTicked_times decodeItem n.toNat).mono (Nat.le_of_not_lt few)).ending ?_
    exact fun items => .lift fun _ => .pure _

/-- Whoever enters the body once more than there is room for is refused there. -/
theorem pairsTicked_spent (room : Nat) : Spent (pairsTicked room) (room + 1) .errLimit := by
  induction room with
  | zero =>
      refine .lift fun left => .ite (fun _ => ?_) fun _ => .pure _ _ _
      exact .tick (.throw _ _)
  | succ room ih =>
      refine .lift fun left => .ite (fun _ => ?_) fun _ => .pure _ _ _
      refine .tick (.lift fun first => ?_)
      exact ih.ending

theorem initTicked_spent : Spent initTicked (maxExtendedPairs + 1) .errLimit :=
  .lift fun _ => (pairsTicked_spent maxExtendedPairs).ending

theorem init_refused {payload : Bytes} (full : initTicked.ticks (newDecoder payload) = 65)
    : decodeInit payload = .error .errLimit := by
  have erased := initTicked_times.outcome (newDecoder payload) 0
  exact erased.symm.trans (initTicked_spent _ 0 (full.trans (Nat.zero_add 65).symm))

/-- On every buffer and after any calls, also failed ones: the offset is inside the buffer, and
the next call does not take it back, makes no slice out of range, and returns no more bytes than
the limit in force allows or than follow their length. The loops of ATTRS and NAME are entered
64 and 65536 times at most, and that of INIT 65 times, the last time only to be refused.
-/
theorem decoder_cursor_safe
    : (∀ (buf : Bytes) (calls : List Call),
        let d := (newDecoder buf).after calls
        d.buf = buf
        ∧ d.off ≤ buf.length
        ∧ ∀ call : Call,
            d.off ≤ (call.perform d).2.off
            ∧ (call.perform d).2.off ≤ buf.length
            ∧ call.slices d = some (call.perform d)
            ∧ ∀ b, (call.perform d).1 = .ok (.bytes b)
              → b.length ≤ d.cap ∧ d.off + 4 + b.length ≤ buf.length)
      ∧ (∀ payload : Bytes,
        (initTicked (newDecoder payload, 0)).1 = decodeInit payload
        ∧ initTicked.ticks (newDecoder payload) ≤ 65
        ∧ (initTicked.ticks (newDecoder payload) = 65
          → decodeInit payload = .error .errLimit))
      ∧ (∀ d : Decoder,
        (attributesTicked (d, 0)).1 = (decodeAttributes d).1
        ∧ (attributesTicked (d, 0)).2.1 = (decodeAttributes d).2
        ∧ attributesTicked.ticks d ≤ 64)
      ∧ ∀ payload : Bytes,
        (nameTicked (newDecoder payload, 0)).1 = decodeName payload
        ∧ nameTicked.ticks (newDecoder payload) ≤ 65536 := by
  refine ⟨?_, fun payload => ?_, fun d => ?_, fun payload => ?_⟩
  · intro buf calls d
    have moved : Moves (newDecoder buf) d := after_moves calls (Nat.zero_le _)
    have same : d.buf = buf := moved.buf
    refine ⟨same, same ▸ moved.within, fun call => ?_⟩
    have moves := call.moves moved.within
    refine ⟨moves.forward, ?_, call.slices_eq moved.within, fun b returns => ?_⟩
    · rw [← same, ← moves.buf]
      exact moves.within
    · rw [← same]
      exact Call.length_bytes returns
  · exact ⟨initTicked_times.outcome _ 0, initTicked_times.ticks _, init_refused⟩
  · exact ⟨attributesTicked_times.outcome d 0, attributesTicked_times.state d 0,
      attributesTicked_times.ticks d⟩
  · exact ⟨nameTicked_times.outcome _ 0, nameTicked_times.ticks _⟩

/-- A blob that fails has consumed its length; a blob of one byte is read after it. -/
theorem decoder_cursor_safe_after_failure
    : let d := (newDecoder [0, 0, 0, 9, 0, 0, 0, 1, 7]).after [.blob]
      d.off = 4
      ∧ (Call.blob.perform d).1 = .ok (.bytes [7])
      ∧ [(7 : UInt8)].length ≤ d.cap
      ∧ (Call.blob.perform d).2.off ≤ 9 := by
  intro d
  obtain ⟨_, _, safe⟩ := decoder_cursor_safe.1 [0, 0, 0, 9, 0, 0, 0, 1, 7] [.blob]
  obtain ⟨_, within, _, bounded⟩ := safe .blob
  exact ⟨rfl, rfl, (bounded [7] rfl).1, within⟩

/-- A version, and 65 pairs of empty strings. -/
def manyPairs : Bytes := List.replicate 524 0

/-- The body of INIT's loop is entered for the 65th pair too. -/
theorem init_loop_is_entered_65_times
    : initTicked.ticks (newDecoder manyPairs) = 65
      ∧ decodeInit manyPairs = .error .errLimit := by
  have entered : initTicked.ticks (newDecoder manyPairs) = 65 := by decide +kernel
  exact ⟨entered, init_refused entered⟩

end SftpServer.Wire
