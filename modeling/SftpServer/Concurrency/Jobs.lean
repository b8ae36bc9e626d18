import Mathlib.Logic.Function.Basic
import SftpServer.Correctness.Contracts
import SftpServer.Foundations.PositionalFile
import SftpServer.Foundations.Reordering

/-! READs and WRITEs in flight together. What a job does to the files of a driver is an
access to one of them; jobs whose spans do not conflict are accesses that commute.
-/

namespace SftpServer.Sftp

open SftpServer.Foundations
open SftpServer.Wire

namespace Span

/-- The file a span lies in. -/
def key : Span → Bytes
  | readRange key _ _ | writeRange key _ _ | writeAll key => key

def writes : Span → Bool
  | readRange _ _ _ => false
  | writeRange _ _ _ | writeAll _ => true

/-- Offset and length, unless it is the whole file. -/
def range : Span → Option (Nat × Nat)
  | readRange _ off len | writeRange _ off len => some (off.toNat, len)
  | writeAll _ => none

/-- Spans in one file that have a byte in common, one of them to be written. -/
def conflicts (a b : Span) : Bool :=
  a.key == b.key
  && (a.writes || b.writes)
  && match a.range, b.range with
    | some (off, len), some (off', len') => overlap off len off' len'
    | _, _ => true

theorem conflicts_comm (a b : Span) : a.conflicts b = b.conflicts a := by
  have ranges (off len off' len' : Nat)
      : overlap off len off' len' = overlap off' len' off len := by
    simp [overlap, max_comm, min_comm]
  cases a <;> cases b <;> simp [conflicts, key, writes, range, ranges, Bool.beq_comm]

end Span

-----------------------------------------------------------------------------------------
-- The driver: what its calls do to the contents of files
-----------------------------------------------------------------------------------------

/-- The contents of the files, by path. -/
abbrev Contents := Bytes → Option Bytes

/-- A driver that stores contents. An open file is the file at the path it `denotes`;
`WriteAt` stores the bytes at the offset and fills the gap before them with zeros.
-/
structure ContentDriver (S : Type) where
  respond : S → (effect : Effect) → effect.Answer × S
  contents : S → Contents
  denotes : File → Bytes
  padsEmpty : Bool
  missing : DriverError
  answers_lock : ∀ s op, contents (respond s (.lock op)).2 = contents s
  answers_readFile : ∀ s path,
    contents (respond s (.driver (.readFile path))).2 = contents s
    ∧ (respond s (.driver (.readFile path))).1
      = match contents s path with
        | some data => .ok data
        | none => .error missing
  answers_writeFile : ∀ s path data perm,
    contents (respond s (.driver (.writeFile path data perm))).2
      = Function.update (contents s) path (some data)
  answers_readAt : ∀ s file n off position, off.toInt = Int.ofNat position →
    contents (respond s (.driver (.fileReadAt file n off))).2 = contents s
    ∧ match contents s (denotes file), (respond s (.driver (.fileReadAt file n off))).1 with
      | some data, (got, err) =>
          got = window data position n ∧ (got = [] → ∀ reported ∈ err, reported.isEOF = true)
      | none, answer => answer = ([], some missing)
  answers_writeAt : ∀ s file data off position, off.toInt = Int.ofNat position →
    contents (respond s (.driver (.fileWriteAt file data off))).2
      = Function.update (contents s) (denotes file)
          ((contents s (denotes file)).map fun old => writeAt padsEmpty 0 old position data)
    ∧ (respond s (.driver (.fileWriteAt file data off))).1
      = match contents s (denotes file) with
        | some _ => none
        | none => some missing

/-- Contents that answer for themselves. -/
def Contents.respond (denotes : File → Bytes) (contents : Contents)
    : (effect : Effect) → effect.Answer × Contents
  | .driver (.readFile path) =>
      match contents path with
      | some data => (.ok data, contents)
      | none => (.error { isNotExist := true, message := [] }, contents)
  | .driver (.writeFile path data _) => (none, Function.update contents path (some data))
  | .driver (.fileReadAt file n off) =>
      match contents (denotes file) with
      | some data => ((window data off.toInt.toNat n, none), contents)
      | none => (([], some { isNotExist := true, message := [] }), contents)
  | .driver (.fileWriteAt file data off) =>
      match contents (denotes file) with
      | some old =>
          (none, Function.update contents (denotes file)
            (some (writeAt true 0 old off.toInt.toNat data)))
      | none => (some { isNotExist := true, message := [] }, contents)
  | _ => (default, contents)

/-- A driver that keeps its files in memory. -/
def memory (denotes : File → Bytes) : ContentDriver Contents where
  respond := Contents.respond denotes
  contents := id
  denotes := denotes
  padsEmpty := true
  missing := { isNotExist := true, message := [] }
  answers_lock _ _ := rfl
  answers_readFile contents path := by
    simp only [Contents.respond]
    cases stored : contents path <;> simp [stored]
  answers_writeFile _ _ _ _ := rfl
  answers_readAt contents file n off position placed := by
    simp only [Contents.respond, placed, Int.ofNat_eq_natCast, Int.toNat_natCast]
    cases stored : contents (denotes file) <;> simp [stored]
  answers_writeAt contents file data off position placed := by
    simp only [Contents.respond, placed, Int.ofNat_eq_natCast, Int.toNat_natCast]
    cases stored : contents (denotes file) with
    | none => simp [stored]
    | some old => simp [stored]

/-- What a job does to a file: a READ, a positional WRITE, or a WRITE that rewrites it. -/
inductive Access where
  | read (key : Bytes) (off : UInt64) (len : Nat)
  | write (key : Bytes) (off : UInt64) (data : Bytes)
  | rewrite (key : Bytes) (off : UInt64) (data : Bytes)

namespace Access

def span : Access → Span
  | read key off len => .readRange key off len
  | write key off data => .writeRange key off data.length
  | rewrite key _ _ => .writeAll key

/-- The file after the access. A rewrite that would grow it too far leaves it alone. -/
def change (pads : Bool) : Access → Bytes → Bytes
  | read _ _ _, old => old
  | write _ off data, old => writeAt pads 0 old off.toNat data
  | rewrite _ off data, old =>
      let stop := (off.toNat + data.length) % 2 ^ 64
      if stop < off.toNat
          ∨ (old.length < stop
            ∧ (maxSpliceGrowth < stop - old.length ∨ maxFileSplice < stop)) then old
      else spliced old off.toNat stop data

/-- All files after the access; one that is missing stays so. -/
def apply (pads : Bool) (a : Access) (contents : Contents) : Contents :=
  Function.update contents a.span.key ((contents a.span.key).map (a.change pads))

variable {pads : Bool} {a b : Access}

@[simp]
theorem apply_read (key : Bytes) (off : UInt64) (len : Nat) (contents : Contents)
    : (read key off len).apply pads contents = contents := by
  have same : change pads (read key off len) = id := rfl
  rw [apply, same, Option.map_id_fun, id, Function.update_eq_self]

/-- Accesses to one file that do not conflict change it in either order. -/
theorem change_comm (same : a.span.key = b.span.key)
    (apart : a.span.conflicts b.span = false) (old : Bytes)
    : b.change pads (a.change pads old) = a.change pads (b.change pads old) := by
  cases a with
  | read => rfl
  -- A rewrite conflicts with everything on its file.
  | rewrite => simp_all [span, Span.conflicts, Span.writes, Span.range]
  | write key off data =>
      cases b with
      | read => rfl
      | rewrite => simp_all [span, Span.conflicts, Span.writes, Span.range]
      | write =>
          simp [span, Span.conflicts, Span.writes, Span.range] at apart
          exact writeAt_comm (apart same)

/-- Accesses that do not conflict commute. -/
theorem apply_comm (apart : a.span.conflicts b.span = false) (contents : Contents)
    : b.apply pads (a.apply pads contents) = a.apply pads (b.apply pads contents) := by
  unfold apply
  by_cases same : a.span.key = b.span.key
  · have changes : b.change pads ∘ a.change pads = a.change pads ∘ b.change pads :=
      funext (change_comm same apart)
    simp only [same, Function.update_self, Function.update_idem, Option.map_map, changes]
  · have other : b.span.key ≠ a.span.key := fun eq => same eq.symm
    rw [Function.update_of_ne other, Function.update_of_ne same, Function.update_comm other]

end Access

-----------------------------------------------------------------------------------------
-- Jobs and the accesses they make
-----------------------------------------------------------------------------------------

/-- The files of a table are those at the paths of their handles. -/
def Handles.Denotes (t : Handles) (denotes : File → Bytes) : Prop :=
  ∀ h ∈ t.openFiles, ∀ file, h.file = some file ∨ h.writable = some file → denotes file = h.path

/-- The handles of a table read with `ReadAt` and write with `WriteAt`. -/
def Handles.Positional (t : Handles) : Prop :=
  ∀ h ∈ t.openFiles, h.dir = false
    → h.file.isSome = true ∧ (h.write = true → h.writable.isSome = true)

/-- A job that a READ or a WRITE becomes on a table of some session. -/
inductive Issued (srv : Server) (tables : Handles → Prop) (job : Job) : Prop where
  | read (t : Handles) (m : ReadRequest) (table : tables t)
    (prepared : readJob srv t m = (some job, none))
  | write (t : Handles) (m : WriteRequest) (table : tables t)
    (prepared : writeJob srv t m = (some job, none))

/-- A READ that becomes a job has an open file, and that file's path is the key. -/
theorem readJob_inv {srv : Server} {t : Handles} {m : ReadRequest} {job : Job}
    (prepared : readJob srv t m = (some job, none))
    : ∃ h, t.get m.handle = some h ∧ h.dir = false
        ∧ job = {
          span := .readRange h.path m.offset (min m.length.toNat srv.readLength)
          run := match h.file with
            | some file =>
                lockedIo (readAt m.id file m.offset (min m.length.toNat srv.readLength))
            | none =>
                rlocked (readWhole m.id h.path m.offset (min m.length.toNat srv.readLength))
        } := by
  unfold readJob at prepared
  split at prepared
  · simp at prepared
  rename_i h found
  split at prepared
  · simp at prepared
  rename_i notDirectory
  split at prepared
  · simp at prepared
  refine ⟨h, found, ?_, ?_⟩
  · simpa using notDirectory
  · exact (Option.some.inj (Prod.mk.inj prepared).1).symm

/-- A WRITE that becomes a job has a file open for writing, and its offset fits. -/
theorem writeJob_inv {srv : Server} {t : Handles} {m : WriteRequest} {job : Job}
    (prepared : writeJob srv t m = (some job, none))
    : ∃ h, t.get m.handle = some h ∧ h.dir = false ∧ h.write = true ∧ ¬maxInt64 < m.offset
        ∧ job = match h.writable with
          | some file =>
              {
                span := .writeRange h.path m.offset m.data.length
                run := lockedIo
                  (statusOf m.id (file.writeAt m.data m.offset.toInt64) statusFailure)
              }
          | none =>
              {
                span := .writeAll h.path
                run := locked (writeSplice m.id h.path m.offset m.data)
              } := by
  unfold writeJob at prepared
  split at prepared
  · simp at prepared
  rename_i h found
  split at prepared
  · simp at prepared
  rename_i notDirectory
  split at prepared
  · simp at prepared
  split at prepared
  · simp at prepared
  rename_i forWriting
  split at prepared
  · simp at prepared
  rename_i fits
  refine ⟨h, found, ?_, ?_, fits, ?_⟩
  · simpa using notDirectory
  · simpa using forWriting
  · cases opened : h.writable with
    | none =>
        rw [opened] at prepared
        exact (Option.some.inj (Prod.mk.inj prepared).1).symm
    | some file =>
        rw [opened] at prepared
        exact (Option.some.inj (Prod.mk.inj prepared).1).symm

/-- The four kinds of jobs: positional, or on the file as a whole. -/
inductive Shape (denotes : File → Bytes) : Job → Access → Prop where
  | readAt (id : UInt32) (file : File) (off : UInt64) (n : Nat)
    : Shape denotes
        {
          span := .readRange (denotes file) off n
          run := lockedIo (readAt id file off n)
        }
        (.read (denotes file) off n)
  | readWhole (id : UInt32) (path : Bytes) (off : UInt64) (n : Nat)
    : Shape denotes
        { span := .readRange path off n, run := rlocked (readWhole id path off n) }
        (.read path off n)
  | writeAt (id : UInt32) (file : File) (off : UInt64) (data : Bytes)
    (fits : ¬maxInt64 < off)
    : Shape denotes
        {
          span := .writeRange (denotes file) off data.length
          run := lockedIo (statusOf id (file.writeAt data off.toInt64) statusFailure)
        }
        (.write (denotes file) off data)
  | rewrite (id : UInt32) (path : Bytes) (off : UInt64) (data : Bytes)
    : Shape denotes
        { span := .writeAll path, run := locked (writeSplice id path off data) }
        (.rewrite path off data)

theorem Shape.span_eq {denotes : File → Bytes} {job : Job} {access : Access}
    (shape : Shape denotes job access)
    : job.span = access.span := by
  cases shape <;> rfl

/-- Every job is of one of the four kinds. -/
theorem Issued.shape {srv : Server} {denotes : File → Bytes} {job : Job}
    (issued : Issued srv (fun t => t.Denotes denotes) job)
    : ∃ access, Shape denotes job access := by
  cases issued with
  | read t m named prepared =>
      obtain ⟨h, found, _, rfl⟩ := readJob_inv prepared
      cases opened : h.file with
      | none => exact ⟨_, .readWhole m.id h.path m.offset _⟩
      | some file =>
          rw [← named h (Handles.mem_openFiles_of_get found) file (Or.inl opened)]
          exact ⟨_, .readAt m.id file m.offset _⟩
  | write t m named prepared =>
      obtain ⟨h, found, _, _, fits, rfl⟩ := writeJob_inv prepared
      cases opened : h.writable with
      | none => exact ⟨_, .rewrite m.id h.path m.offset m.data⟩
      | some file =>
          rw [← named h (Handles.mem_openFiles_of_get found) file (Or.inr opened)]
          exact ⟨_, .writeAt m.id file m.offset m.data fits⟩

-----------------------------------------------------------------------------------------
-- Running jobs against the driver
-----------------------------------------------------------------------------------------

theorem toInt_toInt64 {off : UInt64} (fits : ¬maxInt64 < off)
    : off.toInt64.toInt = Int.ofNat off.toNat := by
  have small : off.toBitVec.toNat < 2 ^ 63 := by
    have bound := UInt64.lt_iff_toNat_lt.not.mp fits
    have value : off.toBitVec.toNat = off.toNat := rfl
    simp [maxInt64] at bound
    omega
  have bits : off.toInt64.toInt = off.toBitVec.toInt := rfl
  rw [bits, BitVec.toInt_eq_toNat_of_lt (by omega)]
  rfl

namespace ContentDriver

variable {S : Type} (driver : ContentDriver S)

/-- Answer one job: its reply, and the driver after it. -/
def run (s : S) (job : Job) : Message × S := Interaction.exec driver.respond s job.run

/-- The driver after these jobs, one at a time. -/
def runAll (s : S) (jobs : List Job) : S := jobs.foldl (fun s job => (driver.run s job).2) s

section Locks

variable {α : Type} {acquire release : LockOp} {body : Prog α}

/-- Locks do not change contents, so a locked program does to them what its body does. -/
theorem contents_withLock (change : Contents → Contents)
    (changes : ∀ s, driver.contents (Interaction.exec driver.respond s body).2
      = change (driver.contents s)) (s : S)
    : driver.contents (Interaction.exec driver.respond s (withLock acquire release body)).2
      = change (driver.contents s) := by
  simp [withLock, driver.answers_lock, changes]

/-- Nor do they change what it returns. -/
theorem result_withLock (result : Contents → α)
    (returns : ∀ s, (Interaction.exec driver.respond s body).1 = result (driver.contents s))
    (s : S)
    : (Interaction.exec driver.respond s (withLock acquire release body)).1
      = result (driver.contents s) := by
  simp [withLock, driver.answers_lock, returns]

end Locks

/-- The reply to a positional READ, by the contents of the file. -/
def readReply (id : UInt32) (off : UInt64) (n : Nat) : Option Bytes → Message
  | some data =>
      if maxInt64 < off ∨ window data off.toNat n = [] then status id statusEOF []
      else .dataReply { id, data := window data off.toNat n }
  | none =>
      if maxInt64 < off ∨ driver.missing.isEOF then status id statusEOF []
      else statusErr id driver.missing statusFailure

/-- The reply to a positional WRITE. -/
def writeReply (id : UInt32) : Option Bytes → Message
  | some _ => status id statusOK []
  | none => statusErr id driver.missing statusFailure

/-- What a READ makes of the driver's answer. -/
def delivered (id : UInt32) (answer : Bytes × Option DriverError) : Message :=
  if 0 < answer.1.length then .dataReply { id, data := answer.1 }
  else
    match answer.2 with
    | none => status id statusEOF []
    | some err => if err.isEOF then status id statusEOF [] else statusErr id err statusFailure

theorem readAt_eq (id : UInt32) (file : File) (off : UInt64) (n : Nat) (fits : ¬maxInt64 < off)
    : readAt id file off n
      = file.readAt n off.toInt64 >>= fun answer => .ret (delivered id answer) := by
  unfold readAt
  rw [if_neg fits]
  congr 1
  funext ⟨got, err⟩
  simp only [delivered, apply_ite Interaction.ret]
  cases err with
  | none => rfl
  | some err => simp only [apply_ite Interaction.ret, Interaction.pure_eq]

/-- A READ answered with the window of the file delivers it, or EOF where it is empty. -/
theorem delivered_some {id : UInt32} {off : UInt64} {n : Nat} {data : Bytes}
    {answer : Bytes × Option DriverError} (fits : ¬maxInt64 < off)
    (read : answer.1 = window data off.toNat n)
    (ended : answer.1 = [] → ∀ reported ∈ answer.2, reported.isEOF = true)
    : delivered id answer = driver.readReply id off n (some data) := by
  simp only [delivered, readReply, ← read]
  by_cases empty : answer.1 = []
  · have eof := ended empty
    cases reported : answer.2 with
    | none => simp [empty]
    | some err => simp [empty, eof err reported]
  · simp [empty, fits, List.length_pos_iff]

/-- A positional READ replies with a window of the file and changes nothing. -/
theorem exec_readAt (s : S) (id : UInt32) (file : File) (off : UInt64) (n : Nat)
    : driver.contents (Interaction.exec driver.respond s (readAt id file off n)).2
        = driver.contents s
      ∧ (Interaction.exec driver.respond s (readAt id file off n)).1
        = driver.readReply id off n (driver.contents s (driver.denotes file)) := by
  -- An offset beyond `int64` is answered without a call.
  by_cases beyond : maxInt64 < off
  · unfold readAt
    rw [if_pos beyond]
    refine ⟨rfl, ?_⟩
    cases driver.contents s (driver.denotes file) <;> simp [readReply, beyond]
  obtain ⟨unchanged, answer⟩ :=
    driver.answers_readAt s file n off.toInt64 off.toNat (toInt_toInt64 beyond)
  rw [readAt_eq id file off n beyond]
  refine ⟨unchanged, ?_⟩
  cases stored : driver.contents s (driver.denotes file) with
  | none =>
      rw [stored] at answer
      simp [File.readAt, answer, delivered, readReply, beyond]
  | some data =>
      rw [stored] at answer
      exact driver.delivered_some beyond answer.1 answer.2

theorem exec_writeAt (s : S) (id : UInt32) (file : File) (off : UInt64) (data : Bytes)
    (fits : ¬maxInt64 < off)
    : driver.contents (Interaction.exec driver.respond s
          (statusOf id (file.writeAt data off.toInt64) statusFailure)).2
        = (Access.write (driver.denotes file) off data).apply driver.padsEmpty
            (driver.contents s)
      ∧ (Interaction.exec driver.respond s
          (statusOf id (file.writeAt data off.toInt64) statusFailure)).1
        = driver.writeReply id (driver.contents s (driver.denotes file)) := by
  obtain ⟨changed, answer⟩ :=
    driver.answers_writeAt s file data off.toInt64 off.toNat (toInt_toInt64 fits)
  simp only [statusOf, File.writeAt, Interaction.exec_bind, Interaction.exec_ask,
    Interaction.exec_ret, answer]
  cases stored : driver.contents s (driver.denotes file) with
  | none => exact ⟨changed, rfl⟩
  | some old => exact ⟨changed, rfl⟩

theorem exec_readWhole (s : S) (id : UInt32) (path : Bytes) (off : UInt64) (n : Nat)
    : driver.contents (Interaction.exec driver.respond s (readWhole id path off n)).2
      = driver.contents s := by
  obtain ⟨unchanged, answer⟩ := driver.answers_readFile s path
  simp only [readWhole, Fsys.readFile, Interaction.exec_bind, Interaction.exec_ask,
    Interaction.exec_ret, answer]
  cases driver.contents s path with
  | none => exact unchanged
  | some data =>
      dsimp only
      split
      · exact unchanged
      · exact unchanged

/-- A rewrite reads the file it replaces. -/
theorem exec_writeSplice (s : S) (id : UInt32) (path : Bytes) (off : UInt64) (data : Bytes)
    : driver.contents (Interaction.exec driver.respond s (writeSplice id path off data)).2
      = (Access.rewrite path off data).apply driver.padsEmpty (driver.contents s) := by
  obtain ⟨unchanged, answer⟩ := driver.answers_readFile s path
  have self {stored : Option Bytes} (same : driver.contents s path = stored)
      : driver.contents s = Function.update (driver.contents s) path stored := by
    rw [← same, Function.update_eq_self]
  simp only [writeSplice, Fsys.readFile, Interaction.exec_bind, Interaction.exec_ask,
    Interaction.exec_ret, answer, Access.apply, Access.span, Span.key]
  cases stored : driver.contents s path with
  | none => exact unchanged.trans (self stored)
  | some old =>
      simp only [Option.map_some, Access.change]
      split
      · exact unchanged.trans (self stored)
      -- The reply depends on what `WriteFile` reports, the contents do not.
      · rw [← unchanged, ← driver.answers_writeFile _ path _ 0o644]
        simp only [statusOf, Fsys.writeFile, Interaction.exec_bind, Interaction.exec_ask,
          Interaction.exec_ret]
        split
        · rfl
        · rfl

end ContentDriver

/-- Every job does to the contents what its access does. -/
theorem performs_of_shape {S : Type} (driver : ContentDriver S) {job : Job} {access : Access}
    (shape : Shape driver.denotes job access) (s : S)
    : driver.contents (driver.run s job).2
      = access.apply driver.padsEmpty (driver.contents s) := by
  cases shape with
  | readAt id file off n =>
      rw [Access.apply_read]
      exact driver.contents_withLock (fun contents => contents)
        (fun s => (driver.exec_readAt s id file off n).1) s
  | readWhole id path off n =>
      rw [Access.apply_read]
      exact driver.contents_withLock (fun contents => contents)
        (fun s => driver.exec_readWhole s id path off n) s
  | writeAt id file off data fits =>
      exact driver.contents_withLock _
        (fun s => (driver.exec_writeAt s id file off data fits).1) s
  | rewrite id path off data =>
      exact driver.contents_withLock _
        (fun s => driver.exec_writeSplice s id path off data) s

end SftpServer.Sftp
