import SftpServer.Correctness.CopyData
import SftpServer.Correctness.CriticalSections

/-! The positions in files that reach the driver. Every handler that narrows what a client
sent to an `int64` checks it first. WRITE checks where it starts and not where it ends, so
the end of a write in place can be a position that no file has.
-/

namespace SftpServer.Sftp

open SftpServer.Foundations
open SftpServer.Wire

/-- The positions this call names are those a file can have. -/
def InFile : Effect → Prop
  | .driver (.fileReadAt _ _ off) => 0 ≤ off.toInt
  | .driver (.fileWriteAt _ data off) => 0 ≤ off.toInt ∧ off.toInt + data.length ≤ 2 ^ 63 - 1
  | .driver (.truncate _ size) => 0 ≤ size.toInt
  | .driver (.fileTruncate _ size) => 0 ≤ size.toInt
  | .driver (.copyRange _ _ dstOff srcOff n) =>
      0 ≤ dstOff.toInt ∧ 0 ≤ srcOff.toInt ∧ 0 ≤ n.toInt
  | _ => True

/-- No file has a negative size, and no slice more bytes than an `int` counts. -/
def SizedAnswer : (effect : Effect) → effect.Answer → Prop
  | .driver (.fileSize _), size => 0 ≤ Int64.toInt size
  | .driver (.readFile _), .ok data => List.length data < 2 ^ 63
  | _, _ => True

/-- A size that is announced and that no file has. -/
def Oversized (a : Attributes) : Prop :=
  a.has attrSize = true ∧ maxInt64 < a.size

/-- The request is for a position that no file has: a WRITE that ends past it, or a size. -/
def BeyondFile (typ : UInt8) (payload : Bytes) : Prop :=
  (typ = fxpWrite
    ∧ ∃ m, decodeWrite payload = .ok m ∧ 2 ^ 63 - 1 < m.offset.toNat + m.data.length)
  ∨ (typ = fxpSetstat ∧ ∃ m, decodeSetstat fxpSetstat payload = .ok m ∧ Oversized m.attrs)
  ∨ (typ = fxpFsetstat ∧ ∃ m, decodeFsetstat payload = .ok m ∧ Oversized m.attrs)

/-- A WRITE in place that starts at a position a file can have and ends past the last. -/
def OverlongWrite (srv : Server) (t : Handles) (typ : UInt8) (payload : Bytes) : Prop :=
  typ = fxpWrite
  ∧ ∃ m h, decodeWrite payload = .ok m
      ∧ WriteAccepted srv t m h
      ∧ h.writable.isSome = true
      ∧ 2 ^ 63 - 1 < m.offset.toNat + m.data.length

-----------------------------------------------------------------------------------------
-- Requests that run alone
-----------------------------------------------------------------------------------------

theorem toInt64_nonneg {off : UInt64} (fits : ¬maxInt64 < off) : 0 ≤ off.toInt64.toInt := by
  rw [toInt_toInt64 fits]
  exact Int.natCast_nonneg _

/-- Whatever it is answered, the program keeps to positions in files. -/
def KeepsInFile {α : Type} (program : Prog α) : Prop := program.Asks InFile fun _ => True

theorem sharedCalls_inFile : SharedCalls InFile where
  stat _ := trivial
  listDir _ := trivial
  readLink _ := trivial
  randRead := trivial

/-- SETSTAT narrows a size only if it fits, and no other position is named. -/
theorem exclusiveCalls_inFile : ExclusiveCalls InFile where
  unplaced call plain := by
    cases call <;> cases plain <;> trivial
  truncate _ _ fits := toInt64_nonneg (UInt64.not_lt.mpr fits)
  randRead := trivial

theorem OneSection.inFile {α : Type} {program : Prog α} (one : OneSection InFile InFile program)
    : KeepsInFile program := by
  cases one with
  | reply value => trivial
  | shared asks => exact asks_withLock (fun _ => trivial) asks
  | exclusive asks => exact asks_withLock (fun _ => trivial) asks

-----------------------------------------------------------------------------------------
-- Copies
-----------------------------------------------------------------------------------------

/-- The program asks only `P` and returns only `Q`, as long as it is answered with sizes. -/
def AsksSized {α : Type} (P : Effect → Prop) (Q : α → Prop) (program : Prog α) : Prop :=
  (Monitor.given SizedAnswer P).wp program (fun _ => Q) ()

namespace AsksSized

variable {α : Type} {P : Effect → Prop} {Q : α → Prop}

theorem call {effect : Effect} {rest : effect.Answer → Prog α} (asked : P effect)
    (later : ∀ answer, SizedAnswer effect answer → AsksSized P Q (rest answer))
    : AsksSized P Q (.ask effect .ret >>= rest) :=
  Monitor.given_call asked later

theorem withLock {acquire release : LockOp} {body : Prog α} (free : ∀ op, P (.lock op))
    (asks : AsksSized P Q body)
    : AsksSized P Q (withLock acquire release body) :=
  given_withLock free asks

theorem keeping {t : Handles} {Q : Message → Prop} {op : Prog Message}
    (asks : AsksSized P Q op)
    : AsksSized P (fun result => Q result.1) (keeping t op) := by
  rw [AsksSized, Sftp.keeping, Monitor.wp_bind]
  exact asks

end AsksSized

theorem KeepsInFile.sized {α : Type} {program : Prog α} (inFile : KeepsInFile program)
    : AsksSized InFile (fun _ => True) program :=
  Monitor.given_of_asks inFile

theorem AsksSized.locked {α : Type} {acquire release : LockOp} {body : Prog α}
    (asks : AsksSized InFile (fun _ => True) body)
    : AsksSized InFile (fun _ => True) (Sftp.withLock acquire release body) :=
  asks.withLock fun _ => trivial

/-- The count of a copy is not negative, whether or not the sums wrap. -/
theorem copyLength_nonneg {m : CopyRequest} (inRange : m.InRange) (size : Int64)
    : 0 ≤ (copyLength size m).toInt := by
  unfold copyLength
  split
  · rw [toInt_max_zero]
    omega
  · rw [(toInt_copyOffset inRange.2.1).1]
    exact Int.natCast_nonneg _

/-- A target is only grown, so its new length is not negative either. -/
theorem copyLocked_sized (id : UInt32) (src dst : File) {m : CopyRequest}
    (inRange : m.InRange)
    : AsksSized InFile (fun _ => True) (copyLocked id src dst m) := by
  rw [copyLocked_eq]
  refine .call trivial fun size _ => .call trivial fun targetSize measured => ?_
  have copies : KeepsInFile (hostcopyRange dst src m.targetOff.toInt64 m.sourceOff.toInt64
      (copyLength size m)) := by
    have target := (toInt_copyOffset inRange.2.2).1
    have source := (toInt_copyOffset inRange.1).1
    exact ⟨⟨by omega, by omega, copyLength_nonneg inRange size⟩, fun _ => trivial⟩
  unfold growTo
  split
  · rename_i grows
    have order := Int64.lt_iff_toInt_lt.mp grows
    refine .call (le_of_lt (lt_of_le_of_lt measured order)) fun failure _ => ?_
    cases failure with
    | none => exact KeepsInFile.sized (statusOf_calls copies)
    | some err => trivial
  · exact KeepsInFile.sized (statusOf_calls copies)

theorem copyData_sized (srv : Server) (t : Handles) (id : UInt32) (data : Bytes)
    : AsksSized InFile (fun _ => True) (copyData srv t id data) := by
  have outcome := copyData_outcome srv t id data
  generalize copyData srv t id data = program at outcome
  cases outcome with
  | refused => trivial
  | served _ served => exact (copyLocked_sized id _ _ served.inRange).locked

theorem opExtended_sized (srv : Server) (t : Handles) (m : ExtendedRequest)
    : AsksSized InFile (fun _ => True) (opExtended srv t m) := by
  unfold opExtended
  split
  · trivial
  split
  · exact copyData_sized srv t m.id m.data
  · trivial

/-- Every request that runs alone. -/
theorem dispatch_sized (srv : Server) (t : Handles) (typ : UInt8) (payload : Bytes)
    : AsksSized InFile (fun _ => True) (dispatch srv t typ payload) := by
  rcases dispatch_section sharedCalls_inFile exclusiveCalls_inFile srv t typ payload
    with one | ⟨m, extended⟩
  · exact one.inFile.sized
  · rw [extended]
    exact (opExtended_sized srv t m).keeping

-----------------------------------------------------------------------------------------
-- Whole requests
-----------------------------------------------------------------------------------------

/-- A READ or WRITE, in the section it takes. -/
theorem KeepsInFile.job {t : Handles} {acquire release : LockOp} {body : Prog Message}
    (inFile : KeepsInFile body)
    : AsksSized InFile (fun _ => True) (keeping t (withLock acquire release body)) :=
  inFile.sized.locked.keeping

/-- A request that is no overlong WRITE keeps to positions in files. -/
theorem answer_sized {srv : Server} {t : Handles} {typ : UInt8} {payload : Bytes}
    (bounded : ¬OverlongWrite srv t typ payload)
    : AsksSized InFile (fun _ => True) (answer srv t typ payload) := by
  have preparation := prepare_preparation srv t typ payload
  unfold answer
  generalize prepare srv t typ payload = outcome at preparation
  cases preparation with
  | barrier => exact dispatch_sized srv t typ payload
  | refused => trivial
  | readsNothing => trivial
  | readsAt => exact KeepsInFile.job (readAt_calls _ toInt64_nonneg)
  | readsWhole => exact KeepsInFile.job (readWhole_calls _ _ _ trivial)
  | @writesAt m h file decodes accepted opened =>
      have ends : m.offset.toNat + m.data.length ≤ 2 ^ 63 - 1 := by
        by_contra beyond
        exact bounded ⟨rfl, m, h, decodes, accepted, by rw [opened]; rfl, by omega⟩
      have start := toInt_toInt64 accepted.fits
      have write : KeepsInFile (file.writeAt m.data m.offset.toInt64) := by
        refine ⟨⟨toInt64_nonneg accepted.fits, ?_⟩, fun _ => trivial⟩
        rw [start, Int.ofNat_eq_natCast]
        omega
      exact KeepsInFile.job (statusOf_calls write)
  | rewrites => exact KeepsInFile.job (writeSplice_calls exclusiveCalls_inFile _ _ _ _)

/-- The data of a WRITE is within the limit of a string. -/
theorem decodeWrite_data {payload : Bytes} {m : WriteRequest}
    (decodes : decodeWrite payload = .ok m)
    : m.data.length ≤ defaultLimit := by
  obtain ⟨final, accepts⟩ := Decode.run_inv decodes
  obtain ⟨id, d₁, first, accepts⟩ := Decode.bind_inv accepts
  obtain ⟨handle, d₂, second, accepts⟩ := Decode.bind_inv accepts
  obtain ⟨offset, d₃, third, accepts⟩ := Decode.bind_inv accepts
  obtain ⟨data, d₄, fourth, accepts⟩ := Decode.bind_inv accepts
  obtain ⟨_, d₅, _, accepts⟩ := Decode.bind_inv accepts
  cases accepts
  have limit : d₃.limit = (newDecoder payload).limit :=
    (Decode.limit_uint64 third).trans
      ((Decode.limit_string second).trans (Decode.limit_uint32 first))
  exact Decode.length_string limit.le fourth

/-- A rewrite of a file that would have to end past the last position is refused. -/
theorem writeSplice_beyond (id : UInt32) (path : Bytes) {off : UInt64} {data : Bytes}
    (sized : data.length < 2 ^ 63) (beyond : 2 ^ 63 - 1 < off.toNat + data.length)
    : AsksSized Harmless (fun reply => refuses reply = true) (writeSplice id path off data) := by
  refine .call (.of_call rfl) fun answer short => ?_
  cases answer with
  | error err => exact refuses_status (statusFor_some_ne_ok err (by decide))
  | ok old =>
      have small : List.length old < 2 ^ 63 := short
      have refused : ¬SpliceAccepts old off data := by
        have bound : maxFileSplice = 1073741824 := rfl
        unfold SpliceAccepts
        omega
      dsimp only
      rw [if_pos ((splice_refused_iff sized).mpr refused)]
      exact refuses_status (by decide)

/-- A size that no file has is refused before anything is set. -/
theorem opSetstat_oversized (srv : Server) (id : UInt32) (path : Bytes) {a : Attributes}
    (oversized : Oversized a)
    : (opSetstat srv id path a).Asks Harmless fun reply => refuses reply = true := by
  unfold opSetstat
  split
  · exact refuses_status (by decide)
  refine asks_withLock harmless_lock ?_
  simp only [setSize, oversized.1, oversized.2, Bool.not_true, Bool.false_eq_true, if_false,
    if_true]
  split
  · exact refuses_status (by decide)
  · exact refuses_status (by decide)

/-- A request for a position that no file has is refused, if it is no overlong WRITE. -/
theorem answer_beyond {srv : Server} {t : Handles} {typ : UInt8} {payload : Bytes}
    (beyond : BeyondFile typ payload) (bounded : ¬OverlongWrite srv t typ payload)
    : AsksSized Harmless (fun result => refuses result.1 = true)
        (answer srv t typ payload) := by
  rcases beyond with ⟨kind, m, decodes, past⟩ | ⟨rfl, m, decodes, oversized⟩
    | ⟨rfl, m, decodes, oversized⟩
  · have preparation := prepare_preparation srv t typ payload
    unfold answer
    generalize prepare srv t typ payload = outcome at preparation
    cases preparation with
    | barrier _ noWrite => exact absurd kind noWrite
    | refused _ refusal => exact refuses_status refusal
    | readsNothing | readsAt | readsWhole => exact absurd kind (by decide)
    | writesAt again accepted opened =>
        cases decodes.symm.trans again
        exact absurd ⟨rfl, m, _, decodes, accepted, by rw [opened]; rfl, past⟩ bounded
    | rewrites again =>
        cases decodes.symm.trans again
        have short : m.data.length < 2 ^ 63 :=
          lt_of_le_of_lt (decodeWrite_data decodes) (by decide)
        exact ((writeSplice_beyond _ _ short past).withLock harmless_lock).keeping
  · have dispatched : answer srv t fxpSetstat payload
        = decoded t (requestID payload) (decodeSetstat fxpSetstat payload)
          fun m => keeping t (opSetstat srv m.id m.path m.attrs) :=
      rfl
    rw [dispatched, decodes]
    exact AsksSized.keeping (Monitor.given_of_asks (opSetstat_oversized srv _ _ oversized))
  · have dispatched : answer srv t fxpFsetstat payload
        = decoded t (requestID payload) (decodeFsetstat payload)
          fun m => keeping t (opFsetstat srv t m) :=
      rfl
    have asks : (opFsetstat srv t m).Asks Harmless fun reply => refuses reply = true := by
      unfold opFsetstat
      split
      · exact refuses_status (by decide)
      · exact opSetstat_oversized srv _ _ oversized
    rw [dispatched, decodes]
    exact AsksSized.keeping (Monitor.given_of_asks asks)

/-- A WRITE in place is one `WriteAt`, wherever it ends. -/
theorem answer_writeAt {srv : Server} {t : Handles} {payload : Bytes} {m : WriteRequest}
    {h : OpenFile} {file : File} (decodes : decodeWrite payload = .ok m)
    (accepted : WriteAccepted srv t m h) (opened : h.writable = some file)
    : (answer srv t fxpWrite payload).Runs [
        ⟨.lock .lockIo, ()⟩,
        ⟨.driver (.fileWriteAt file m.data m.offset.toInt64), none⟩,
        ⟨.lock .unlockIo, ()⟩] (status m.id statusOK [], t) := by
  rw [answer, prepare_write, decodes]
  simp only [writeJob, accepted.found, accepted.isFile, accepted.writable, accepted.forWriting,
    accepted.fits, opened, Bool.not_true, Bool.false_eq_true, if_false]
  exact .ask (.ask (.ask (.ret _)))

/-- On any table, a request makes calls with positions a file can have, and is refused without
a mutation if it asks for others, exactly if it is not a WRITE in place past the end of what a
file can be.
-/
theorem positions_in_file_iff (srv : Server) (t : Handles) (typ : UInt8) (payload : Bytes)
    : (∀ calls result, (answer srv t typ payload).Runs calls result
        → (∀ event ∈ calls, SizedAnswer event.question event.answer)
        → (∀ event ∈ calls, InFile event.question)
          ∧ (BeyondFile typ payload
            → refuses result.1 = true ∧ ∀ event ∈ calls, Harmless event.question))
      ↔ ¬OverlongWrite srv t typ payload := by
  constructor
  · intro all overlong
    obtain ⟨rfl, m, h, decodes, accepted, inPlace, past⟩ := overlong
    obtain ⟨file, opened⟩ := Option.isSome_iff_exists.mp inPlace
    have inFile := (all _ _ (answer_writeAt decodes accepted opened) (by simp [SizedAnswer])).1
    have ends : m.offset.toInt64.toInt + m.data.length ≤ 2 ^ 63 - 1 :=
      (inFile ⟨.driver (.fileWriteAt file m.data m.offset.toInt64), none⟩ (by simp)).2
    rw [toInt_toInt64 accepted.fits, Int.ofNat_eq_natCast] at ends
    omega
  · intro bounded calls result run answers
    refine ⟨(Monitor.given_runs (answer_sized bounded) run answers).1, fun beyond => ?_⟩
    exact (Monitor.given_runs (answer_beyond beyond bounded) run answers).symm

/-- WRITE of one byte at the last position there is. -/
def writeAtLast : Bytes :=
  [0, 0, 0, 2, 0, 0, 0, 32] ++ zeroToken ++ [0x7f, 0xff, 0xff, 0xff, 0xff, 0xff, 0xff, 0xff]
    ++ [0, 0, 0, 1, 7]

/-- The byte would lie past the last position, and the driver is asked to write it there. -/
theorem write_past_last_position
    : decodeWrite writeAtLast = .ok (writeTo 0x7fffffffffffffff [7])
      ∧ BeyondFile fxpWrite writeAtLast
      ∧ (answer { plainServer with opener := true } (handleOn (some ⟨0, true⟩)) fxpWrite
          writeAtLast).Runs [
          ⟨.lock .lockIo, ()⟩,
          ⟨.driver (.fileWriteAt ⟨0, true⟩ [7] 0x7fffffffffffffff), none⟩,
          ⟨.lock .unlockIo, ()⟩] (status 2 statusOK [], handleOn (some ⟨0, true⟩))
      ∧ ¬InFile (.driver (.fileWriteAt ⟨0, true⟩ [7] 0x7fffffffffffffff)) := by
  refine ⟨rfl, .inl ⟨rfl, _, rfl, by decide⟩, .ask (.ask (.ask (.ret _))), ?_⟩
  intro inFile
  exact absurd inFile.2 (by decide)

end SftpServer.Sftp
