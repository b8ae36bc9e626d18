import SftpServer.Correctness.Dispatching
import SftpServer.Correctness.FileWrites
import SftpServer.Wire.Canonical

/-! The server-side copy. Its operands are bounded one by one, and their sums are not: two of
them can wrap. The target is given its final length before anything is copied, also when
nothing will be. What follows the operands in the request is not looked at.
-/

namespace SftpServer.Sftp

open SftpServer.Foundations
open SftpServer.Wire

-----------------------------------------------------------------------------------------
-- The operands
-----------------------------------------------------------------------------------------

/-- The operands of copy-data on the wire. -/
def CopyRequest.body (m : CopyRequest) : Bytes :=
  lengthPrefixed m.source ++ (BigEndian.encode 8 m.sourceOff.toNat
    ++ (BigEndian.encode 8 m.length.toNat
      ++ (lengthPrefixed m.target ++ BigEndian.encode 8 m.targetOff.toNat)))

/-- Both strings are within the decoder's limit. -/
def CopyRequest.Short (m : CopyRequest) : Prop :=
  m.source.length ≤ defaultLimit ∧ m.target.length ≤ defaultLimit

/-- The operands one after the other, up to the first that fails. -/
def copyFields : Decode CopyRequest := do
  let source ← Decode.string
  let sourceOff ← Decode.uint64
  let length ← Decode.uint64
  let target ← Decode.string
  let targetOff ← Decode.uint64
  pure { source, sourceOff, length, target, targetOff }

/-- Reading on after a failure does not change what is accepted. -/
theorem decodeCopyRequest_eq (data : Bytes)
    : decodeCopyRequest data = Decode.run data copyFields := by
  unfold decodeCopyRequest Decode.run copyFields
  rcases first : Decode.string (newDecoder data) with ⟨err | source, d₁⟩
  · rw [Decode.bind_error first]
    rfl
  rw [Decode.bind_ok first]
  dsimp only
  rcases second : Decode.uint64 d₁ with ⟨err | sourceOff, d₂⟩
  · rw [Decode.bind_error second]
    rfl
  rw [Decode.bind_ok second]
  dsimp only
  rcases third : Decode.uint64 d₂ with ⟨err | length, d₃⟩
  · rw [Decode.bind_error third]
    rfl
  rw [Decode.bind_ok third]
  dsimp only
  rcases fourth : Decode.string d₃ with ⟨err | target, d₄⟩
  · rw [Decode.bind_error fourth]
    rfl
  rw [Decode.bind_ok fourth]
  dsimp only
  rcases fifth : Decode.uint64 d₄ with ⟨err | targetOff, d₅⟩
  · rw [Decode.bind_error fifth]
    rfl
  rw [Decode.bind_ok fifth]
  rfl

theorem field_copy {m : CopyRequest} (short : m.Short) : Field copyFields m.body m := by
  refine (field_blob short.1).bind ((field_uint64 _).bind ((field_uint64 _).bind ?_))
  exact (field_blob short.2).bind ((field_uint64 _).then (Field.pure _))

/-- Both strings of accepted operands are within the limit: no read changes it. -/
theorem short_of_copyFields {data : Bytes} {m : CopyRequest}
    (decodes : Decode.run data copyFields = .ok m)
    : m.Short := by
  obtain ⟨final, accepts⟩ := Decode.run_inv decodes
  obtain ⟨source, d₁, first, accepts⟩ := Decode.bind_inv accepts
  obtain ⟨sourceOff, d₂, second, accepts⟩ := Decode.bind_inv accepts
  obtain ⟨length, d₃, third, accepts⟩ := Decode.bind_inv accepts
  obtain ⟨target, d₄, fourth, accepts⟩ := Decode.bind_inv accepts
  obtain ⟨targetOff, d₅, fifth, accepts⟩ := Decode.bind_inv accepts
  cases accepts
  have limit : d₃.limit = (newDecoder data).limit :=
    (Decode.limit_uint64 third).trans
      ((Decode.limit_uint64 second).trans (Decode.limit_string first))
  exact ⟨Decode.length_string le_rfl first, Decode.length_string (le_of_eq limit) fourth⟩

/-- What is accepted: short operands as they are encoded, and whatever follows them. -/
theorem decodeCopyRequest_iff {data : Bytes} {m : CopyRequest}
    : decodeCopyRequest data = .ok m ↔ m.Short ∧ ∃ extra, data = m.body ++ extra := by
  rw [decodeCopyRequest_eq]
  constructor
  · intro decodes
    refine ⟨short_of_copyFields decodes, ?_⟩
    have spells : Consumes copyFields fun m front after =>
        ∃ extra, front ++ after = m.body ++ extra := by
      refine spells_blob.bind fun source => spells_uint64.bind fun sourceOff => ?_
      refine spells_uint64.bind fun length => spells_blob.bind fun target => ?_
      refine spells_uint64.bind fun targetOff => Consumes.pure fun after => ⟨after, ?_⟩
      simp [CopyRequest.body]
    exact Consumes.run (Q := fun m payload => ∃ extra, payload = m.body ++ extra) spells decodes
  · intro both
    obtain ⟨short, extra, rfl⟩ := both
    exact ((field_copy short).reads extra).run

/-- A STATUS that reports a malformed request. -/
def isBadMessage : Message → Bool
  | .statusReply m => m.code == statusBadMessage
  | _ => false

/-- A failed call is not reported as one. -/
theorem isBadMessage_statusErr (id : UInt32) (err : DriverError)
    : isBadMessage (statusErr id (some err) statusFailure) = false := by
  have other : statusFor (some err) statusFailure ≠ statusBadMessage :=
    statusFor_some_ne err (by decide) (by decide)
  simpa [isBadMessage, statusErr, status] using other

theorem copyLocked_decoded (id : UInt32) (src dst : File) (m : CopyRequest)
    : (copyLocked id src dst m).Asks (fun _ => True)
        fun reply => isBadMessage reply = false := by
  refine .call trivial fun size => .call trivial fun targetSize => ?_
  rw [Interaction.asks_bind]
  refine (Interaction.asks_true _).mono (fun _ _ => trivial) fun failure _ => ?_
  rcases failure with _ | err
  · refine .call trivial fun copied => ?_
    rcases copied with _ | err
    · rfl
    · exact isBadMessage_statusErr id err
  · exact isBadMessage_statusErr id err

/-- A body is called bad exactly if it does not decode. -/
theorem copyData_decoded_iff (srv : Server) (t : Handles) (id : UInt32) (data : Bytes)
    : (∀ trace reply, (copyData srv t id data).Runs trace reply → isBadMessage reply = false)
      ↔ ∃ m, decodeCopyRequest data = .ok m := by
  have outcome := copyData_outcome srv t id data
  generalize copyData srv t id data = program at outcome
  cases outcome with
  | @refused code msg _ malformed =>
      have decoded : (∃ m, decodeCopyRequest data = .ok m) ↔ code ≠ statusBadMessage := by
        rw [Ne, malformed]
        cases decodeCopyRequest data <;> simp
      rw [decoded]
      constructor
      · intro all
        simpa [isBadMessage, status] using all [] _ (.ret _)
      · intro other trace reply run
        obtain ⟨_, rfl⟩ := Interaction.runs_ret_iff.mp run
        simpa [isBadMessage, status] using other
  | served decodes =>
      refine iff_of_true ?_ ⟨_, decodes⟩
      intro trace reply run
      exact ((asks_withLock (fun _ => trivial) (copyLocked_decoded id _ _ _)).of_runs run).2

/-- A body gets past the decoding exactly if it is encoded operands and nothing more, except
that one which goes on after them does too.
-/
theorem copy_grammar_iff (srv : Server) (t : Handles) (id : UInt32) (data : Bytes)
    : ((∀ trace reply, (copyData srv t id data).Runs trace reply → isBadMessage reply = false)
        ↔ ∃ m : CopyRequest, m.Short ∧ data = m.body)
      ↔ ∀ (m : CopyRequest) (extra : Bytes), m.Short → data = m.body ++ extra → extra = [] := by
  rw [copyData_decoded_iff]
  constructor
  · intro exactly m extra short split
    have decodes := decodeCopyRequest_iff.mpr ⟨short, extra, split⟩
    obtain ⟨m', short', whole⟩ := exactly.mp ⟨m, decodes⟩
    have again := decodeCopyRequest_iff.mpr ⟨short', [], whole.trans (List.append_nil _).symm⟩
    cases decodes.symm.trans again
    exact List.append_right_eq_self.mp (split.symm.trans whole)
  · intro nothing
    constructor
    · intro decoded
      obtain ⟨m, decodes⟩ := decoded
      obtain ⟨short, extra, split⟩ := decodeCopyRequest_iff.mp decodes
      have empty := nothing m extra short split
      exact ⟨m, short, by rw [split, empty, List.append_nil]⟩
    · intro spelled
      obtain ⟨m, short, rfl⟩ := spelled
      exact ⟨m, decodeCopyRequest_iff.mpr ⟨short, [], (List.append_nil _).symm⟩⟩

/-- The operands of the least request there is. -/
def copyNothing : CopyRequest where
  source := []
  sourceOff := 0
  length := 0
  target := []
  targetOff := 0

/-- One byte after the operands: the handles are looked up, although these are the operands of
no request.
-/
theorem copy_with_trailing_byte
    : copyData { plainServer with opener := true } ∅ 1 (copyNothing.body ++ [0])
        = .ret (status 1 statusFailure (text "unknown handle"))
      ∧ isBadMessage (status 1 statusFailure (text "unknown handle")) = false
      ∧ ¬∃ m : CopyRequest, m.Short ∧ copyNothing.body ++ [0] = m.body := by
  refine ⟨rfl, rfl, ?_⟩
  intro spelled
  obtain ⟨m, short, whole⟩ := spelled
  have decodes : decodeCopyRequest m.body = .ok m :=
    decodeCopyRequest_iff.mpr ⟨short, [], (List.append_nil _).symm⟩
  have reads : decodeCopyRequest (copyNothing.body ++ [0]) = .ok copyNothing := rfl
  rw [whole] at reads
  cases decodes.symm.trans reads
  exact absurd (congrArg List.length whole) (by decide)

-----------------------------------------------------------------------------------------
-- The arithmetic
-----------------------------------------------------------------------------------------

section Sums

variable {a b : Int64}

/-- A sum of two positions is exact unless it passes the largest one. -/
theorem toInt_add_eq_iff (left : 0 ≤ a.toInt) (right : 0 ≤ b.toInt)
    : (a + b).toInt = a.toInt + b.toInt ↔ a.toInt + b.toInt < 2 ^ 63 := by
  constructor
  · intro exact
    rw [← exact]
    exact (a + b).toInt_lt
  · intro small
    rw [Int64.toInt_add]
    exact Int.bmod_eq_of_le (by omega) (by omega)

/-- A difference of two positions is exact. -/
theorem toInt_sub_of_nonneg (left : 0 ≤ a.toInt) (right : 0 ≤ b.toInt)
    : (a - b).toInt = a.toInt - b.toInt := by
  have first := a.toInt_lt
  have second := b.toInt_lt
  rw [Int64.toInt_sub]
  exact Int.bmod_eq_of_le (by omega) (by omega)

theorem toInt_max_zero (a : Int64) : (max a 0).toInt = max a.toInt 0 := by
  show (if a ≤ 0 then (0 : Int64) else a).toInt = _
  have zero : (0 : Int64).toInt = 0 := rfl
  split <;> rename_i order <;> rw [Int64.le_iff_toInt_le, zero] at order <;> omega

end Sums

/-- How many bytes a copy from a source of `size` bytes is of. -/
def copyCount (size : Nat) (m : CopyRequest) : Nat :=
  if m.length = 0 then size - m.sourceOff.toNat
  else min m.length.toNat (size - m.sourceOff.toNat)

/-- The count that `copyLocked` comes to. -/
def copyLength (size : Int64) (m : CopyRequest) : Int64 :=
  if m.length = 0 ∨ size < m.sourceOff.toInt64 + m.length.toInt64 then
    max (size - m.sourceOff.toInt64) 0
  else m.length.toInt64

/-- The length it first gives the target. -/
def copyStop (size : Int64) (m : CopyRequest) : Int64 :=
  m.targetOff.toInt64 + copyLength size m

/-- The calls of a copy of `count` bytes. -/
def CopiesCount (m : CopyRequest) (count : Nat) : Effect → Prop
  | .driver (.fileTruncate _ size) => size.toInt = m.targetOff.toNat + count
  | .driver (.copyRange _ _ dstOff srcOff n) =>
      dstOff.toInt = m.targetOff.toNat ∧ srcOff.toInt = m.sourceOff.toNat ∧ n.toInt = count
  | _ => True

section Arithmetic

variable {m : CopyRequest} {size : Int64}

theorem toInt_copyOffset {off : UInt64} (bounded : off ≤ maxCopyOffset)
    : off.toInt64.toInt = off.toNat ∧ off.toNat ≤ 2 ^ 62 := by
  have small : off.toNat ≤ 2 ^ 62 := UInt64.le_iff_toNat_le.mp bounded
  refine ⟨toInt_toInt64 ?_, small⟩
  rw [UInt64.lt_iff_toNat_lt, show maxInt64.toNat = 2 ^ 63 - 1 from rfl]
  omega

/-- Where the offset and the length wrap, the clamp to the end of the source is missed. -/
theorem copyLength_exact (inRange : m.InRange) (sized : 0 ≤ size.toInt)
    (fits : m.sourceOff.toNat + m.length.toNat < 2 ^ 63)
    : (copyLength size m).toInt = copyCount size.toInt.toNat m := by
  obtain ⟨source, _⟩ := toInt_copyOffset inRange.1
  obtain ⟨length, _⟩ := toInt_copyOffset inRange.2.1
  have sum : (m.sourceOff.toInt64 + m.length.toInt64).toInt
      = m.sourceOff.toInt64.toInt + m.length.toInt64.toInt :=
    (toInt_add_eq_iff (by omega) (by omega)).mpr (by omega)
  have rest := toInt_sub_of_nonneg sized (by omega : 0 ≤ m.sourceOff.toInt64.toInt)
  have none : m.length = 0 ↔ m.length.toNat = 0 := UInt64.toNat_inj.symm
  simp only [copyLength, copyCount, Int64.lt_iff_toInt_lt, sum, none]
  split
  · rw [toInt_max_zero, rest, source]
    split <;> omega
  · rw [length]
    split <;> omega

theorem copyStop_exact_iff (inRange : m.InRange) {count : Nat}
    (exact : (copyLength size m).toInt = count)
    : (copyStop size m).toInt = m.targetOff.toNat + count
      ↔ m.targetOff.toNat + count < 2 ^ 63 := by
  obtain ⟨target, _⟩ := toInt_copyOffset inRange.2.2
  have sum := @toInt_add_eq_iff m.targetOff.toInt64 (copyLength size m) (by omega) (by omega)
  rw [target, exact] at sum
  rw [copyStop, sum]
  omega

/-- The copy once the size of the source is known. -/
def copySized (id : UInt32) (src dst : File) (m : CopyRequest) (size : Int64)
    : Prog Message := do
  let targetSize ← dst.size
  if let some err ← growTo dst targetSize (copyStop size m) then
    return statusErr id err statusFailure
  statusOf id (hostcopyRange dst src m.targetOff.toInt64 m.sourceOff.toInt64
    (copyLength size m)) statusFailure

theorem copyLocked_eq (id : UInt32) (src dst : File) (m : CopyRequest)
    : copyLocked id src dst m = src.size >>= copySized id src dst m :=
  rfl

theorem copySized_calls (id : UInt32) (src dst : File) (inRange : m.InRange) {count : Nat}
    (length : (copyLength size m).toInt = count)
    (stop : (copyStop size m).toInt = m.targetOff.toNat + count)
    : (copySized id src dst m size).Asks (CopiesCount m count) (Answers id isStatus) := by
  have copies : (statusOf id (hostcopyRange dst src m.targetOff.toInt64 m.sourceOff.toInt64
      (copyLength size m)) statusFailure).Asks (CopiesCount m count) (Answers id isStatus) := by
    refine statusOf_asks id (by decide) ⟨?_, fun _ => trivial⟩
    exact ⟨(toInt_copyOffset inRange.2.2).1, (toInt_copyOffset inRange.1).1, length⟩
  refine .call trivial fun targetSize => ?_
  unfold growTo
  split
  · refine .call stop fun failure => ?_
    cases failure with
    | none => exact copies
    | some err => exact answers_statusErr _ _ err (by decide)
  · exact copies

/-- A copy is refused with no call, or asks under the lock for the size of its source first, and
does the rest with the answer.
-/
theorem copyData_calls {srv : Server} {t : Handles} {id : UInt32} {data : Bytes}
    {trace : List Event} {reply : Message} {P : Effect → Prop} {Q : Message → Prop}
    (decodes : decodeCopyRequest data = .ok m) (run : (copyData srv t id data).Runs trace reply)
    (asks : m.InRange → ∀ src dst, (copySized id src dst m size).Asks P Q)
    (free : ∀ op, P (.lock op))
    : (trace = [] ∧ reply ≠ status id statusOK [])
      ∨ ∃ h h' src dst answer later, CopyServed srv t m h h' src dst
        ∧ trace = ⟨.lock .lock, ()⟩ :: ⟨.driver (.fileSize src), answer⟩ :: later
        ∧ (answer = size → ∀ event ∈ later, P event.question) := by
  have outcome := copyData_outcome srv t id data
  generalize copyData srv t id data = program at outcome run
  cases outcome with
  | refused refusal =>
      obtain ⟨rfl, rfl⟩ := Interaction.runs_ret_iff.mp run
      exact .inl ⟨rfl, status_ne_ok refusal⟩
  | @served _ h h' src dst decoded served =>
      cases decodes.symm.trans decoded
      obtain ⟨inner, rfl, body⟩ := runs_withLock run
      obtain ⟨answer, rest, rfl, later⟩ := Interaction.runs_call_iff.mp body
      refine .inr ⟨h, h', src, dst, answer, _, served, rfl, ?_⟩
      rintro rfl
      have calls := ((asks served.inRange src dst).of_runs later).1
      intro event listed
      rcases List.mem_append.mp listed with inside | last
      · exact calls event inside
      · rw [List.mem_singleton.mp last]
        exact free _

/-- The arithmetic of a copy is exact as long as neither the end of the range to read nor that
of the range to write passes the largest position. The range check on each operand does not
see to that. Every copy that is not refused asks for the size first, and goes by the answer.
-/
theorem copy_arithmetic_exact_iff (inRange : m.InRange) (sized : 0 ≤ size.toInt)
    : ((m.sourceOff.toInt64 + m.length.toInt64).toInt = m.sourceOff.toNat + m.length.toNat
        ∧ (size - m.sourceOff.toInt64).toInt = size.toInt - m.sourceOff.toNat
        ∧ (copyLength size m).toInt = copyCount size.toInt.toNat m
        ∧ (copyStop size m).toInt = m.targetOff.toNat + copyCount size.toInt.toNat m
        ∧ ∀ srv t id data trace reply, decodeCopyRequest data = .ok m
          → (copyData srv t id data).Runs trace reply
          → (trace = [] ∧ reply ≠ status id statusOK [])
            ∨ ∃ h h' src dst answer later, CopyServed srv t m h h' src dst
              ∧ trace = ⟨.lock .lock, ()⟩ :: ⟨.driver (.fileSize src), answer⟩ :: later
              ∧ (answer = size → ∀ event ∈ later,
                CopiesCount m (copyCount size.toInt.toNat m) event.question))
      ↔ m.sourceOff.toNat + m.length.toNat < 2 ^ 63
        ∧ m.targetOff.toNat + copyCount size.toInt.toNat m < 2 ^ 63 := by
  obtain ⟨source, _⟩ := toInt_copyOffset inRange.1
  obtain ⟨length, _⟩ := toInt_copyOffset inRange.2.1
  have sum := @toInt_add_eq_iff m.sourceOff.toInt64 m.length.toInt64 (by omega) (by omega)
  rw [source, length] at sum
  constructor
  · intro exact
    obtain ⟨start, _, counts, stop, _⟩ := exact
    exact ⟨by have := sum.mp start; omega, (copyStop_exact_iff inRange counts).mp stop⟩
  · intro fits
    have counts := copyLength_exact inRange sized fits.1
    have stop := (copyStop_exact_iff inRange counts).mpr fits.2
    have rest := toInt_sub_of_nonneg sized (by omega : 0 ≤ m.sourceOff.toInt64.toInt)
    rw [source] at rest
    refine ⟨sum.mpr (by omega), rest, counts, stop, ?_⟩
    intro srv t id data trace reply decodes run
    exact copyData_calls decodes run
      (fun _ src dst => copySized_calls id src dst inRange counts stop) fun _ => trivial

end Arithmetic

/-- The token of a second handle. -/
def oneToken : Bytes := List.replicate 32 0x31

/-- `/a`, open to read. -/
def sourceHandle : OpenFile where
  path := [0x2f, 0x61]
  file := some { id := 0, isWritable := true }

/-- `/b`, open to write in place. -/
def targetHandle : OpenFile where
  path := [0x2f, 0x62]
  write := true
  file := some { id := 1, isWritable := true }
  writable := some { id := 1, isWritable := true }

def sourceAndTarget : Handles :=
  AList.insert zeroToken sourceHandle (AList.insert oneToken targetHandle ∅)

/-- A copy from the one to the other. -/
def copying (sourceOff length targetOff : UInt64) : CopyRequest where
  source := zeroToken
  sourceOff
  length
  target := oneToken
  targetOff

theorem copy_arithmetic_exact_tail
    : (copyLength 3 (copying 1 7 2)).toInt = 2 ∧ (copyStop 3 (copying 1 7 2)).toInt = 4 := by
  have inRange : (copying 1 7 2).InRange := by decide
  have exact := (copy_arithmetic_exact_iff inRange (by decide : 0 ≤ (3 : Int64).toInt)).mpr
    (by decide)
  exact ⟨exact.2.2.1, exact.2.2.2.1⟩

/-- Of an empty source 2^62 bytes are to be copied, and the target is first grown by as many. -/
theorem copy_wraps_and_grows_target
    : let m := copying 0x4000000000000000 0x4000000000000000 0
      m.InRange
      ∧ copyCount 0 m = 0
      ∧ (copyLength 0 m).toInt = 2 ^ 62
      ∧ decodeCopyRequest m.body = .ok m
      ∧ (copyData { plainServer with opener := true } sourceAndTarget 1 m.body).Runs [
          ⟨.lock .lock, ()⟩,
          ⟨.driver (.fileSize { id := 0, isWritable := true }), (0 : Int64)⟩,
          ⟨.driver (.fileSize { id := 1, isWritable := true }), (0 : Int64)⟩,
          ⟨.driver (.fileTruncate { id := 1, isWritable := true } 0x4000000000000000), none⟩,
          ⟨.driver (.copyRange { id := 1, isWritable := true } { id := 0, isWritable := true }
            0 0x4000000000000000 0x4000000000000000), none⟩,
          ⟨.lock .unlock, ()⟩] (status 1 statusOK []) := by
  refine ⟨by decide, rfl, rfl, rfl, ?_⟩
  exact .ask (.ask (.ask (.ask (.ask (.ask (.ret _))))))

-----------------------------------------------------------------------------------------
-- What is copied
-----------------------------------------------------------------------------------------

section Copying

variable {State : Type} (store : PlacedStore State) {s : State} {src dst : File}
  {origin path : Bytes}

/-- A target that is grown ends where it was told to, and one that is long enough is kept. -/
theorem PlacedStore.growTo_ok {size stop : Int64} {length : Nat} {old : Bytes}
    (here : store.isAt s dst path) (sized : size.toInt = old.length)
    (stops : stop.toInt = length) (stored : store.contents s path = some old)
    (ok : (Interaction.exec store.respond s (growTo dst size stop)).1 = none)
    : store.contents (Interaction.exec store.respond s (growTo dst size stop)).2
      = Function.update (store.contents s) path
          (some (if old.length < length then resize 0 old length else old)) := by
  have grows : size < stop ↔ old.length < length := by
    rw [Int64.lt_iff_toInt_lt]
    omega
  unfold growTo at ok ⊢
  by_cases short : old.length < length
  · rw [if_pos (grows.mpr short)] at ok ⊢
    rw [if_pos short]
    exact store.truncates s dst path stop length old here stops stored ok
  · rw [if_neg (grows.not.mpr short), if_neg short, ← stored]
    exact (Function.update_eq_self _ _).symm

/-- Growing one file moves none. -/
theorem PlacedStore.growTo_stays {file : File} {size stop : Int64}
    (here : store.isAt s file path)
    : store.isAt (Interaction.exec store.respond s (growTo dst size stop)).2 file path := by
  unfold growTo
  split
  · exact store.stays s (.fileTruncate dst stop) file path (fun _ => nofun) here
  · exact here

/-- What is to be copied, from a source with this content. -/
def CopyRequest.range (m : CopyRequest) (source : Bytes) : Bytes :=
  window source m.sourceOff.toNat (copyCount source.length m)

theorem CopyRequest.length_range (m : CopyRequest) (source : Bytes)
    : (m.range source).length = copyCount source.length m := by
  rw [CopyRequest.range, length_window, copyCount]
  split <;> omega

/-- A copy that is answered OK has written its range, and padded even if that is empty. -/
theorem PlacedStore.copySized_ok {id : UInt32} {m : CopyRequest} {size : Int64}
    {source old : Bytes} (inRange : m.InRange) (there : store.isAt s src origin)
    (here : store.isAt s dst path) (apart : origin ≠ path)
    (found : store.contents s origin = some source) (stored : store.contents s path = some old)
    (small : old.length < 2 ^ 63)
    (counts : (copyLength size m).toInt = copyCount source.length m)
    (stop : (copyStop size m).toInt = m.targetOff.toNat + copyCount source.length m)
    (ok : (Interaction.exec store.respond s (copySized id src dst m size)).1
      = status id statusOK [])
    : store.contents (Interaction.exec store.respond s (copySized id src dst m size)).2
      = Function.update (store.contents s) path
          (some (writeAt true 0 old m.targetOff.toNat (m.range source))) := by
  have kept := store.serve_keeps s (.fileSize dst) rfl
  have measured := store.sizes s dst path old here stored small
  replace here := store.stays s (.fileSize dst) dst path (fun _ => nofun) here
  replace there := store.stays s (.fileSize dst) src origin (fun _ => nofun) there
  simp only [copySized, File.size, Interaction.exec_bind, Interaction.exec_ask,
    Interaction.exec_ret, FileStore.respond] at ok ⊢
  rw [← kept] at found stored ⊢
  generalize store.serve s (.fileSize dst) = answered at *
  cases grown : (Interaction.exec store.respond answered.2
      (growTo dst answered.1 (copyStop size m))).1 with
  | some err =>
      rw [grown] at ok
      exact absurd ok statusErr_ne_ok
  | none =>
      rw [grown] at ok
      dsimp only at ok ⊢
      rw [statusOf_ok_iff] at ok
      rw [exec_statusOf_state]
      have after := store.growTo_ok here measured stop stored grown
      have target := congrFun after path
      have untouched := congrFun after origin
      rw [Function.update_self] at target
      rw [Function.update_of_ne apart, found] at untouched
      have copies := store.copies _ dst src path origin _ _ _ _ _ _ _ _
        (store.growTo_stays here) (store.growTo_stays there) (toInt_copyOffset inRange.2.2).1
        (toInt_copyOffset inRange.1).1 counts target untouched (m.length_range source) ok
      have padded := @writeAt_grown _ 0 old (m.range source) m.targetOff.toNat
      rw [m.length_range] at padded
      rw [after, Function.update_idem] at copies
      rw [← padded]
      exact copies

theorem PlacedStore.copyLocked_ok {id : UInt32} {m : CopyRequest} {source old : Bytes}
    (inRange : m.InRange) (there : store.isAt s src origin) (here : store.isAt s dst path)
    (apart : origin ≠ path) (found : store.contents s origin = some source)
    (stored : store.contents s path = some old)
    (sized : source.length < 2 ^ 63) (small : old.length < 2 ^ 63)
    (reads : m.sourceOff.toNat + m.length.toNat < 2 ^ 63)
    (writes : m.targetOff.toNat + copyCount source.length m < 2 ^ 63)
    (ok : (Interaction.exec store.respond s (copyLocked id src dst m)).1 = status id statusOK [])
    : store.contents (Interaction.exec store.respond s (copyLocked id src dst m)).2
      = Function.update (store.contents s) path
          (some (writeAt true 0 old m.targetOff.toNat (m.range source))) := by
  have kept := store.serve_keeps s (.fileSize src) rfl
  have measured := store.sizes s src origin source there found sized
  replace here := store.stays s (.fileSize src) dst path (fun _ => nofun) here
  replace there := store.stays s (.fileSize src) src origin (fun _ => nofun) there
  rw [copyLocked_eq] at ok ⊢
  simp only [File.size, Interaction.exec_bind, Interaction.exec_ask, Interaction.exec_ret,
    FileStore.respond] at ok ⊢
  rw [← kept] at found stored ⊢
  generalize store.serve s (.fileSize src) = answered at *
  have whole : answered.1.toInt.toNat = source.length := by rw [measured]; rfl
  have positive : 0 ≤ Int64.toInt answered.1 := by
    rw [measured]
    exact Int.natCast_nonneg _
  have counts := copyLength_exact inRange positive reads
  rw [whole] at counts
  have stop := (copyStop_exact_iff inRange counts).mpr writes
  exact store.copySized_ok inRange there here apart found stored small counts stop ok

end Copying

section Contents

variable {State : Type} (store : OpenStore State) {s : State}

/-- The target a copy is to leave. -/
def CopyRequest.result (m : CopyRequest) (source old : Bytes) : Bytes :=
  if copyCount source.length m = 0 then old
  else writeAt false 0 old m.targetOff.toNat (m.range source)

/-- A copy pads where there is nothing to copy. -/
theorem CopyRequest.result_iff {m : CopyRequest} {source old : Bytes}
    : writeAt true 0 old m.targetOff.toNat (m.range source) = m.result source old
      ↔ 0 < copyCount source.length m ∨ m.targetOff.toNat ≤ old.length := by
  have length := m.length_range source
  have empty : m.range source = [] ↔ copyCount source.length m = 0 := by
    rw [← length, List.length_eq_zero_iff]
  have exact : m.result source old = writeAt false 0 old m.targetOff.toNat (m.range source) := by
    rw [CopyRequest.result]
    split
    · rw [empty.mpr ‹_›]
      simp [writeAt]
    · rfl
  rw [exact, writeAt_padding_iff, Ne, empty]
  omega

/-- A copy that is answered OK has put the range of the source into the target and changed
nothing else, unless there was nothing to copy and the target ended before the offset: it is
grown up to there.
-/
theorem copy_copies_range_iff {srv : Server} {t : Handles} {id : UInt32} {data : Bytes}
    {m : CopyRequest} {src dst : OpenFile} {file writable : File} {source old : Bytes}
    (decodes : decodeCopyRequest data = .ok m)
    (reading : t.get m.source = some src) (opened : src.file = some file)
    (writing : t.get m.target = some dst) (writes : dst.writable = some writable)
    (apart : store.denotes file ≠ store.denotes writable)
    (found : store.contents s (store.denotes file) = some source)
    (stored : store.contents s (store.denotes writable) = some old)
    (sized : source.length < 2 ^ 63) (small : old.length < 2 ^ 63)
    (readFits : m.sourceOff.toNat + m.length.toNat < 2 ^ 63)
    (writeFits : m.targetOff.toNat + copyCount source.length m < 2 ^ 63)
    (ok : (Interaction.exec store.respond s (copyData srv t id data)).1 = status id statusOK [])
    : store.contents (Interaction.exec store.respond s (copyData srv t id data)).2
        = Function.update (store.contents s) (store.denotes writable)
            (some (m.result source old))
      ↔ 0 < copyCount source.length m ∨ m.targetOff.toNat ≤ old.length := by
  have outcome := copyData_outcome srv t id data
  generalize copyData srv t id data = program at outcome ok
  cases outcome with
  | refused refusal => exact absurd ok (status_ne_ok refusal)
  | served decoded served =>
      cases decodes.symm.trans decoded
      cases reading.symm.trans served.source
      cases writing.symm.trans served.target
      cases opened.symm.trans served.opened
      cases writes.symm.trans served.writes
      simp only [locked, store.exec_withLock] at ok ⊢
      have copied : store.contents (Interaction.exec store.respond s
            (copyLocked id file writable m)).2
          = Function.update (store.contents s) (store.denotes writable)
              (some (writeAt true 0 old m.targetOff.toNat (m.range source))) :=
        store.placed.copyLocked_ok served.inRange rfl rfl apart found stored sized small readFits
          writeFits ok
      rw [copied, (Function.update_injective _ _).eq_iff, Option.some_inj]
      exact CopyRequest.result_iff

end Contents

/-- A driver that opens `/a` and `/b` for writing in place, and nothing else. -/
def openingPair : (call : DriverCall) → call.Answer
  | .openFile path =>
      if path = [0x2f, 0x61] then .ok (some { id := 0, isWritable := true })
      else if path = [0x2f, 0x62] then .ok (some { id := 1, isWritable := true })
      else .ok none
  | call => call.success

def pairStore : OpenStore Contents :=
  memoryStore openingPair (fun file => if file.id = 0 then [0x2f, 0x61] else [0x2f, 0x62]) (by
    intro path file opened
    simp only [openingPair] at opened
    split at opened
    · cases opened
      exact Eq.symm ‹_›
    split at opened
    · cases opened
      exact Eq.symm ‹_›
    · cases opened)

def pairHolding (source old : Bytes) : Contents := fun path =>
  if path = [0x2f, 0x61] then some source
  else if path = [0x2f, 0x62] then some old
  else none

theorem copy_copies_range_gap
    : pairStore.contents (Interaction.exec pairStore.respond (pairHolding [1, 2, 3] [9])
        (copyData { plainServer with opener := true } sourceAndTarget 1
          (copying 1 0 3).body)).2 [0x2f, 0x62]
      = some [9, 0, 0, 2, 3] := by
  have copies := (@copy_copies_range_iff _ pairStore (pairHolding [1, 2, 3] [9])
    { plainServer with opener := true } sourceAndTarget 1 (copying 1 0 3).body (copying 1 0 3)
    sourceHandle targetHandle { id := 0, isWritable := true } { id := 1, isWritable := true }
    [1, 2, 3] [9] rfl rfl rfl rfl rfl (by decide) rfl rfl (by decide) (by decide) (by decide)
    (by decide) rfl).mpr (.inl (by decide))
  rw [copies]
  rfl

/-- Nothing lies after the offset in the source, and the target is grown up to its own. -/
theorem copy_of_nothing_grows_target
    : let after := Interaction.exec pairStore.respond (pairHolding [1, 2, 3] [9])
        (copyData { plainServer with opener := true } sourceAndTarget 1 (copying 3 0 2).body)
      after.1 = status 1 statusOK []
      ∧ copyCount 3 (copying 3 0 2) = 0
      ∧ pairStore.contents after.2 [0x2f, 0x62] = some [9, 0] :=
  ⟨rfl, rfl, rfl⟩

end SftpServer.Sftp
