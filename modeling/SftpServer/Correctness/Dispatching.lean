import SftpServer.Correctness.HandleTable
import SftpServer.Sftp.Session

/-! The handlers a packet can reach, said once as a relation, and the contract of a whole
packet: dispatched alone, or prepared as a job that runs beside others.
-/

namespace SftpServer.Sftp

open SftpServer.Foundations
open SftpServer.Wire

/-- Whatever the decoder returns satisfies `Q`. -/
def Yields {α : Type} (decode : Decode α) (Q : α → Prop) : Prop :=
  ∀ d value, (decode d).1 = .ok value → Q value

theorem Yields.bind {α β : Type} {decode : Decode α} {rest : α → Decode β} {Q : β → Prop}
    (later : ∀ value, Yields (rest value) Q)
    : Yields (decode >>= rest) Q := by
  intro d result returns
  obtain ⟨value, middle, _, ends⟩ := Decode.bind_inv (Prod.ext returns rfl)
  exact later value middle result (congrArg Prod.fst ends)

theorem Yields.pure {α : Type} {value : α} {Q : α → Prop} (holds : Q value)
    : Yields (pure value) Q := by
  intro d result returns
  cases returns
  exact holds

/-- A request starts with its id, so any decoder that returns one read it there. -/
theorem id_of_run {α : Type} {id : α → UInt32} {payload : Bytes} {rest : UInt32 → Decode α}
    {m : α} (decodes : Decode.run payload (Decode.uint32 >>= rest) = .ok m)
    (copies : ∀ first, Yields (rest first) fun m => id m = first)
    : id m = requestID payload := by
  unfold Decode.run at decodes
  by_cases short : payload.length < 4
  · have few : (newDecoder payload).remaining < 4 := by
      simp only [Decoder.remaining, newDecoder]
      omega
    rw [Decode.bind_error (if_pos few)] at decodes
    cases decodes
  · have enough : ¬(newDecoder payload).remaining < 4 := by
      simp only [Decoder.remaining, newDecoder]
      omega
    rw [Decode.bind_ok (if_neg enough)] at decodes
    rw [requestID, if_neg short]
    exact copies _ _ m decodes

theorem decodeOpen_id {payload : Bytes} {m : OpenRequest}
    (decodes : decodeOpen payload = .ok m)
    : m.id = requestID payload :=
  id_of_run decodes fun _ =>
    .bind fun _ => .bind fun _ => .bind fun _ => .bind fun _ => .pure rfl

theorem decodePath_id {typ : UInt8} {payload : Bytes} {m : PathRequest}
    (decodes : decodePath typ payload = .ok m)
    : m.id = requestID payload :=
  id_of_run decodes fun _ =>
    .bind fun _ => .bind fun _ => .pure rfl

theorem decodeHandle_id {typ : UInt8} {payload : Bytes} {m : HandleRequest}
    (decodes : decodeHandle typ payload = .ok m)
    : m.id = requestID payload :=
  id_of_run decodes fun _ =>
    .bind fun _ => .bind fun _ => .pure rfl

theorem decodeRead_id {payload : Bytes} {m : ReadRequest}
    (decodes : decodeRead payload = .ok m)
    : m.id = requestID payload :=
  id_of_run decodes fun _ =>
    .bind fun _ => .bind fun _ => .bind fun _ => .bind fun _ => .pure rfl

theorem decodeWrite_id {payload : Bytes} {m : WriteRequest}
    (decodes : decodeWrite payload = .ok m)
    : m.id = requestID payload :=
  id_of_run decodes fun _ =>
    .bind fun _ => .bind fun _ => .bind fun _ => .bind fun _ => .pure rfl

theorem decodeSetstat_id {typ : UInt8} {payload : Bytes} {m : SetstatRequest}
    (decodes : decodeSetstat typ payload = .ok m)
    : m.id = requestID payload :=
  id_of_run decodes fun _ =>
    .bind fun _ => .bind fun _ => .bind fun _ => .pure rfl

theorem decodeFsetstat_id {payload : Bytes} {m : FsetstatRequest}
    (decodes : decodeFsetstat payload = .ok m)
    : m.id = requestID payload :=
  id_of_run decodes fun _ =>
    .bind fun _ => .bind fun _ => .bind fun _ => .pure rfl

theorem decodeRename_id {payload : Bytes} {m : RenameRequest}
    (decodes : decodeRename payload = .ok m)
    : m.id = requestID payload :=
  id_of_run decodes fun _ =>
    .bind fun _ => .bind fun _ => .bind fun _ => .pure rfl

theorem decodeSymlink_id {payload : Bytes} {m : SymlinkRequest}
    (decodes : decodeSymlink payload = .ok m)
    : m.id = requestID payload :=
  id_of_run decodes fun _ =>
    .bind fun _ => .bind fun _ => .bind fun _ => .pure rfl

theorem decodeExtended_id {payload : Bytes} {m : ExtendedRequest}
    (decodes : decodeExtended payload = .ok m)
    : m.id = requestID payload :=
  id_of_run decodes fun _ =>
    .bind fun _ => .bind fun _ => .pure rfl

/-- The handler `dispatch` chooses for a packet. -/
inductive Handler (srv : Server) (t : Handles) (payload : Bytes)
    : UInt8 → Prog (Message × Handles) → Prop where
  | malformed {typ : UInt8} (err : WireError)
    : Handler srv t payload typ (.ret (badMessage (requestID payload) err, t))
  | opens {m : OpenRequest} (decodes : decodeOpen payload = .ok m)
    : Handler srv t payload fxpOpen (opOpen srv t m)
  | closes {m : HandleRequest} (decodes : decodeHandle fxpClose payload = .ok m)
    : Handler srv t payload fxpClose (opClose t m)
  | stats {typ : UInt8} {m : PathRequest} (kind : typ = fxpLstat ∨ typ = fxpStat)
    (decodes : decodePath typ payload = .ok m)
    : Handler srv t payload typ (keeping t (opStat srv m))
  | fstats {m : HandleRequest} (decodes : decodeHandle fxpFstat payload = .ok m)
    : Handler srv t payload fxpFstat (keeping t (opFstat srv t m))
  | setstats {m : SetstatRequest} (decodes : decodeSetstat fxpSetstat payload = .ok m)
    : Handler srv t payload fxpSetstat (keeping t (opSetstat srv m.id m.path m.attrs))
  | fsetstats {m : FsetstatRequest} (decodes : decodeFsetstat payload = .ok m)
    : Handler srv t payload fxpFsetstat (keeping t (opFsetstat srv t m))
  | opendirs {m : PathRequest} (decodes : decodePath fxpOpendir payload = .ok m)
    : Handler srv t payload fxpOpendir (opOpendir t m)
  | readdirs {m : HandleRequest} (decodes : decodeHandle fxpReaddir payload = .ok m)
    : Handler srv t payload fxpReaddir (opReaddir srv t m)
  | removes {typ : UInt8} {m : PathRequest} (kind : typ = fxpRemove ∨ typ = fxpRmdir)
    (decodes : decodePath typ payload = .ok m)
    : Handler srv t payload typ (keeping t (opRemove srv m))
  | mkdirs {m : SetstatRequest} (decodes : decodeSetstat fxpMkdir payload = .ok m)
    : Handler srv t payload fxpMkdir (keeping t (opMkdir srv m))
  | realpaths {m : PathRequest} (decodes : decodePath fxpRealpath payload = .ok m)
    : Handler srv t payload fxpRealpath (keeping t (opRealpath m))
  | renames {m : RenameRequest} (decodes : decodeRename payload = .ok m)
    : Handler srv t payload fxpRename (keeping t (opRename srv m))
  | readlinks {m : PathRequest} (decodes : decodePath fxpReadlink payload = .ok m)
    : Handler srv t payload fxpReadlink (keeping t (opReadlink m))
  | symlinks {m : SymlinkRequest} (decodes : decodeSymlink payload = .ok m)
    : Handler srv t payload fxpSymlink (keeping t (opSymlink srv m))
  | extensions {m : ExtendedRequest} (decodes : decodeExtended payload = .ok m)
    : Handler srv t payload fxpExtended (keeping t (opExtended srv t m))
  | unsupported {typ : UInt8}
    : Handler srv t payload typ
        (.ret (status (requestID payload) statusOpUnsupported
          (text "unsupported request type"), t))

/-- A decoded request goes to its handler, any other is refused as malformed. -/
theorem decoded_handler {α : Type} {srv : Server} {t : Handles} {payload : Bytes}
    {typ : UInt8} {request : Except WireError α} {op : α → Prog (Message × Handles)}
    (handled : ∀ m, request = .ok m → Handler srv t payload typ (op m))
    : Handler srv t payload typ (decoded t (requestID payload) request op) := by
  cases request with
  | error err => exact .malformed err
  | ok m => exact handled m rfl

/-- One comparison of the switch over packet types. -/
theorem ite_handler {srv : Server} {t : Handles} {payload : Bytes} {typ : UInt8} {c : Prop}
    [Decidable c] {chosen other : Prog (Message × Handles)}
    (yes : c → Handler srv t payload typ chosen)
    (no : Handler srv t payload typ other)
    : Handler srv t payload typ (if c then chosen else other) := by
  by_cases holds : c
  · rw [if_pos holds]
    exact yes holds
  · rw [if_neg holds]
    exact no

theorem dispatch_handler (srv : Server) (t : Handles) (typ : UInt8) (payload : Bytes)
    : Handler srv t payload typ (dispatch srv t typ payload) := by
  unfold dispatch
  -- The comparisons of the switch, in its order.
  refine ite_handler (fun same => same ▸ decoded_handler fun _ decodes => .opens decodes) ?_
  refine ite_handler (fun same => same ▸ decoded_handler fun _ decodes => .closes decodes) ?_
  refine ite_handler (fun kind => decoded_handler fun _ decodes => .stats kind decodes) ?_
  refine ite_handler (fun same => same ▸ decoded_handler fun _ decodes => .fstats decodes) ?_
  refine ite_handler (fun same => same ▸ decoded_handler fun _ decodes => .setstats decodes) ?_
  refine ite_handler (fun same => same ▸ decoded_handler fun _ decodes => .fsetstats decodes) ?_
  refine ite_handler (fun same => same ▸ decoded_handler fun _ decodes => .opendirs decodes) ?_
  refine ite_handler (fun same => same ▸ decoded_handler fun _ decodes => .readdirs decodes) ?_
  refine ite_handler (fun kind => decoded_handler fun _ decodes => .removes kind decodes) ?_
  refine ite_handler (fun same => same ▸ decoded_handler fun _ decodes => .mkdirs decodes) ?_
  refine ite_handler (fun same => same ▸ decoded_handler fun _ decodes => .realpaths decodes) ?_
  refine ite_handler (fun same => same ▸ decoded_handler fun _ decodes => .renames decodes) ?_
  refine ite_handler (fun same => same ▸ decoded_handler fun _ decodes => .readlinks decodes) ?_
  refine ite_handler (fun same => same ▸ decoded_handler fun _ decodes => .symlinks decodes) ?_
  refine ite_handler (fun same => same ▸ decoded_handler fun _ decodes => .extensions decodes) ?_
  exact .unsupported

/-- What a WRITE that becomes a job has passed. -/
structure WriteAccepted (srv : Server) (t : Handles) (m : WriteRequest) (h : OpenFile)
    : Prop where
  found : t.get m.handle = some h
  isFile : h.dir = false
  writable : srv.ro = false
  forWriting : h.write = true
  fits : ¬maxInt64 < m.offset

/-- What `prepare` makes of a packet: nothing, a reply, or the job of a READ or WRITE. -/
inductive Preparation (srv : Server) (t : Handles) (payload : Bytes)
    : UInt8 → Option Job × Option Message → Prop where
  | barrier {typ : UInt8} (noRead : typ ≠ fxpRead) (noWrite : typ ≠ fxpWrite)
    : Preparation srv t payload typ (none, none)
  | refused {typ : UInt8} {code : Status} {msg : Bytes} (kind : typ = fxpRead ∨ typ = fxpWrite)
    (refusal : code ≠ statusOK) (short : msg.length ≤ 64)
    : Preparation srv t payload typ (none, some (status (requestID payload) code msg))
  | readsNothing
    : Preparation srv t payload fxpRead
        (none, some (.dataReply { id := requestID payload, data := [] }))
  | readsAt {m : ReadRequest} {h : OpenFile} {file : File}
    (decodes : decodeRead payload = .ok m) (found : t.get m.handle = some h)
    (isFile : h.dir = false) (opened : h.file = some file)
    : Preparation srv t payload fxpRead (some {
        span := .readRange h.path m.offset (min m.length.toNat srv.readLength)
        run := lockedIo (readAt m.id file m.offset (min m.length.toNat srv.readLength))
      }, none)
  | readsWhole {m : ReadRequest} {h : OpenFile}
    (decodes : decodeRead payload = .ok m) (found : t.get m.handle = some h)
    (isFile : h.dir = false) (noFile : h.file = none)
    : Preparation srv t payload fxpRead (some {
        span := .readRange h.path m.offset (min m.length.toNat srv.readLength)
        run := rlocked (readWhole m.id h.path m.offset (min m.length.toNat srv.readLength))
      }, none)
  | writesAt {m : WriteRequest} {h : OpenFile} {file : File}
    (decodes : decodeWrite payload = .ok m) (accepted : WriteAccepted srv t m h)
    (opened : h.writable = some file)
    : Preparation srv t payload fxpWrite (some {
        span := .writeRange h.path m.offset m.data.length
        run := lockedIo (statusOf m.id (file.writeAt m.data m.offset.toInt64) statusFailure)
      }, none)
  | rewrites {m : WriteRequest} {h : OpenFile}
    (decodes : decodeWrite payload = .ok m) (accepted : WriteAccepted srv t m h)
    (noFile : h.writable = none)
    : Preparation srv t payload fxpWrite (some {
        span := .writeAll h.path
        run := locked (writeSplice m.id h.path m.offset m.data)
      }, none)

section Preparations

variable {srv : Server} {t : Handles} {payload : Bytes}

theorem malformed_preparation {typ : UInt8} (kind : typ = fxpRead ∨ typ = fxpWrite)
    (err : WireError)
    : Preparation srv t payload typ (none, some (badMessage (requestID payload) err)) := by
  refine .refused kind (by decide) ?_
  cases err <;> decide

theorem readJob_preparation {m : ReadRequest} (decodes : decodeRead payload = .ok m)
    : Preparation srv t payload fxpRead (readJob srv t m) := by
  have same := decodeRead_id decodes
  unfold readJob
  split
  · exact same ▸ .refused (.inl rfl) (by decide) (by decide)
  rename_i h found
  split
  · exact same ▸ .refused (.inl rfl) (by decide) (by decide)
  rename_i notDirectory
  have isFile : h.dir = false := by simpa using notDirectory
  split
  · exact same ▸ .readsNothing
  cases opened : h.file with
  | some file => exact .readsAt decodes found isFile opened
  | none => exact .readsWhole decodes found isFile opened

theorem writeJob_preparation {m : WriteRequest} (decodes : decodeWrite payload = .ok m)
    : Preparation srv t payload fxpWrite (writeJob srv t m) := by
  have same := decodeWrite_id decodes
  unfold writeJob
  split
  · exact same ▸ .refused (.inr rfl) (by decide) (by decide)
  rename_i h found
  split
  · exact same ▸ .refused (.inr rfl) (by decide) (by decide)
  rename_i notDirectory
  split
  · exact same ▸ .refused (.inr rfl) (by decide) (by decide)
  rename_i readWrite
  split
  · exact same ▸ .refused (.inr rfl) (by decide) (by decide)
  rename_i forWriting
  split
  · exact same ▸ .refused (.inr rfl) (by decide) (by decide)
  rename_i fits
  have accepted : WriteAccepted srv t m h := {
    found
    isFile := by simpa using notDirectory
    writable := by simpa using readWrite
    forWriting := by simpa using forWriting
    fits
  }
  cases opened : h.writable with
  | some file => exact .writesAt decodes accepted opened
  | none => exact .rewrites decodes accepted opened

theorem prepare_preparation (srv : Server) (t : Handles) (typ : UInt8) (payload : Bytes)
    : Preparation srv t payload typ (prepare srv t typ payload) := by
  unfold prepare
  split
  · subst typ
    split
    · exact malformed_preparation (.inl rfl) _
    · exact readJob_preparation ‹_›
  rename_i noRead
  split
  · subst typ
    split
    · exact malformed_preparation (.inr rfl) _
    · exact writeJob_preparation ‹_›
  · exact .barrier noRead ‹_›

end Preparations

/-- The operands are within the bound of copy-data, each by itself. -/
def CopyRequest.InRange (m : CopyRequest) : Prop :=
  m.sourceOff ≤ maxCopyOffset ∧ m.length ≤ maxCopyOffset ∧ m.targetOff ≤ maxCopyOffset

instance (m : CopyRequest) : Decidable m.InRange := inferInstanceAs (Decidable (_ ∧ _))

/-- What a copy that is carried out has passed. -/
structure CopyServed (srv : Server) (t : Handles) (m : CopyRequest) (src dst : OpenFile)
    (file writable : File) : Prop where
  offered : srv.copiesData = true
  source : t.get m.source = some src
  target : t.get m.target = some dst
  targetFile : dst.dir = false
  apart : src.path ≠ dst.path
  forWriting : dst.write = true
  opened : src.file = some file
  writes : dst.writable = some writable
  inRange : m.InRange

/-- A copy-data is refused at once, and then only as malformed if it did not decode, or it is
carried out.
-/
inductive CopyOutcome (srv : Server) (t : Handles) (id : UInt32) (data : Bytes)
    : Prog Message → Prop where
  | refused {code : Status} {msg : Bytes} (refusal : code ≠ statusOK)
    (malformed : code = statusBadMessage ↔ ∃ err, decodeCopyRequest data = .error err)
    (short : msg.length ≤ 64)
    : CopyOutcome srv t id data (.ret (status id code msg))
  | served {m : CopyRequest} {src dst : OpenFile} {file writable : File}
    (decodes : decodeCopyRequest data = .ok m)
    (served : CopyServed srv t m src dst file writable)
    : CopyOutcome srv t id data (locked (copyLocked id file writable m))

theorem copyData_outcome (srv : Server) (t : Handles) (id : UInt32) (data : Bytes)
    : CopyOutcome srv t id data (copyData srv t id data) := by
  unfold copyData
  split
  · rename_i err bad
    have short : (text "copy-data: " ++ err.message).length ≤ 64 := by
      cases err <;> decide
    exact .refused (by decide) (iff_of_true rfl ⟨err, bad⟩) short
  rename_i m decodes
  have refused {code : Status} {msg : Bytes} (refusal : code ≠ statusOK)
      (other : code ≠ statusBadMessage) (short : msg.length ≤ 64)
      : CopyOutcome srv t id data (.ret (status id code msg)) :=
    .refused refusal (iff_of_false other (by simp [decodes])) short
  split
  · exact refused (by decide) (by decide) (by decide)
  rename_i offered
  split
  swap
  · exact refused (by decide) (by decide) (by decide)
  rename_i src dst source target
  split
  · exact refused (by decide) (by decide) (by decide)
  rename_i files
  split
  · exact refused (by decide) (by decide) (by decide)
  rename_i apart
  split
  · exact refused (by decide) (by decide) (by decide)
  rename_i forWriting
  split
  swap
  · exact refused (by decide) (by decide) (by decide)
  rename_i file writable opened writes
  split
  · exact refused (by decide) (by decide) (by decide)
  rename_i bounded
  simp only [not_or, UInt64.not_lt] at bounded
  refine .served decodes {
    offered := by simpa using offered
    source := source
    target := target
    targetFile := by simp_all
    apart := apart
    forWriting := by simpa using forWriting
    opened := opened
    writes := writes
    inRange := bounded
  }

section Packets

variable {srv : Server} {paths : Bytes → Prop} {t : Handles}
  (within : ∀ path, Canonical path → paths path) (wellFormed : t.WellFormed srv)

include wellFormed in
/-- What a handle is written through is one of the table's files. -/
theorem mem_files_of_writable {tok : Bytes} {h : OpenFile} {file : File}
    (found : t.get tok = some h) (notDirectory : h.dir = false)
    (opened : h.writable = some file)
    : file ∈ t.files := by
  obtain ⟨_, same⟩ := (wellFormed.get found).writable notDirectory file opened
  exact Handles.mem_files_of_get found same

/-- A use of open files on an export that is not read-only. -/
theorem Steady.use {call : DriverCall} {files : File → Prop} (noPaths : call.paths = [])
    (steady : call.isSteady = true) (writable : srv.ro = false)
    (allowed : ∀ file ∈ call.files, files file)
    : Steady srv paths files (.driver call) := by
  refine ⟨steady, by simp [noPaths], allowed, fun readOnly => ?_⟩
  simp [writable] at readOnly

theorem growTo_asks {dst : File} {files : File → Prop} (writable : srv.ro = false)
    (target : files dst) (size stop : Int64)
    : (growTo dst size stop).Asks (Steady srv paths files) fun _ => True := by
  unfold growTo
  split
  · exact ⟨.use rfl rfl writable (by simpa [DriverCall.files] using target), fun _ => trivial⟩
  · trivial

theorem copyLocked_asks (id : UInt32) {src dst : File} {files : File → Prop}
    (m : CopyRequest) (writable : srv.ro = false) (source : files src) (target : files dst)
    : (copyLocked id src dst m).Asks (Steady srv paths files) (Answers id isStatus) := by
  unfold copyLocked
  refine .call (.use rfl rfl writable (by simpa [DriverCall.files] using source)) fun size => ?_
  refine .call (.use rfl rfl writable (by simpa [DriverCall.files] using target)) fun grown => ?_
  rw [Interaction.asks_bind]
  refine (growTo_asks writable target _ _).mono (fun _ holds => holds) ?_
  intro answer _
  rcases answer with _ | err
  · refine statusOf_asks id (by decide) ⟨.use rfl rfl writable ?_, fun _ => trivial⟩
    simp [DriverCall.files, source, target]
  · exact answers_statusErr _ _ err (by decide)

include wellFormed in
theorem copyData_asks (id : UInt32) (data : Bytes)
    : (copyData srv t id data).Asks (Steady srv paths (· ∈ t.files))
        (Answers id isStatus) := by
  have outcome := copyData_outcome srv t id data
  generalize copyData srv t id data = program at outcome
  cases outcome with
  | refused refusal => exact answers_refusal _ _ _ refusal
  | served _ served =>
      -- A read-only export does not offer the extension, so no handler asks again.
      have writable : srv.ro = false := by
        have offered := served.offered
        simp only [Server.copiesData, Bool.and_eq_true, Bool.not_eq_true'] at offered
        exact offered.2
      refine asks_withLock (fun _ => trivial) (copyLocked_asks id _ writable ?_ ?_)
      · exact Handles.mem_files_of_get served.source served.opened
      · exact mem_files_of_writable wellFormed served.target served.targetFile served.writes

/-- The kind of reply an extension allows. -/
def extensionKind (m : ExtendedRequest) : Message → Bool :=
  if m.name = limitsExtension then isExtended else isStatus

include wellFormed in
theorem opExtended_asks (m : ExtendedRequest)
    : (opExtended srv t m).Asks (Steady srv paths (· ∈ t.files))
        (Answers m.id (extensionKind m)) := by
  unfold opExtended
  split
  · rename_i limits
    exact ⟨rfl, by simp [extensionKind, limits, isExtended, limitsReply]⟩
  · rename_i other
    rw [extensionKind, if_neg other]
    split
    · exact copyData_asks wellFormed m.id m.data
    · exact answers_refusal _ _ _ (by decide)

/-- What `prepare` returns for a READ or WRITE: a job with its contract, or a reply. -/
inductive Prepared (srv : Server) (t : Handles) (paths : Bytes → Prop) (id : UInt32)
    (kind : Message → Bool) : Option Job × Option Message → Prop where
  | job {job : Job}
    (asks : job.run.Asks (Steady srv paths (· ∈ t.files)) (Answers id kind))
    : Prepared srv t paths id kind (some job, none)
  | early {reply : Message} (answers : Answers id kind reply)
    : Prepared srv t paths id kind (none, some reply)

theorem readAt_asks (id : UInt32) {file : File} {files : File → Prop} (off : UInt64)
    (n : Nat) (allowed : files file)
    : (readAt id file off n).Asks (Steady srv paths files) (Answers id isData) := by
  unfold readAt
  split
  · exact answers_refusal _ _ _ (by decide)
  refine .call ⟨rfl, by simp [DriverCall.paths], by simpa [DriverCall.files] using allowed,
    fun _ => rfl⟩ ?_
  intro result
  obtain ⟨got, err⟩ := result
  dsimp only
  split
  · exact ⟨rfl, rfl⟩
  split
  · exact answers_refusal _ _ _ (by decide)
  split
  · exact answers_refusal _ _ _ (by decide)
  · exact answers_statusErr _ _ _ (by decide)

theorem readWhole_asks (id : UInt32) {path : Bytes} {files : File → Prop} (off : UInt64)
    (n : Nat) (inside : paths path)
    : (readWhole id path off n).Asks (Steady srv paths files) (Answers id isData) := by
  unfold readWhole
  refine .call (.read rfl rfl rfl rfl inside) ?_
  intro answer
  rcases answer with err | data
  · exact answers_statusErr _ _ err (by decide)
  · dsimp only
    split
    · exact answers_refusal _ _ _ (by decide)
    · exact ⟨rfl, rfl⟩

theorem writeSplice_asks (id : UInt32) {path : Bytes} {files : File → Prop} (off : UInt64)
    (data : Bytes) (writable : srv.ro = false) (inside : paths path)
    : (writeSplice id path off data).Asks (Steady srv paths files) (Answers id isStatus) := by
  unfold writeSplice
  refine .call (.read rfl rfl rfl rfl inside) ?_
  intro answer
  rcases answer with err | old
  · exact answers_statusErr _ _ err (by decide)
  · dsimp only
    split
    · exact answers_refusal _ _ _ (by decide)
    · exact statusOf_asks id (by decide)
        ⟨.writeOne rfl rfl rfl writable inside, fun _ => trivial⟩

theorem keeping_asks {P : Effect → Prop} {Q : Message → Prop} {op : Prog Message}
    (asks : op.Asks P Q)
    : (keeping t op).Asks P fun result => Q result.1 ∧ result.2 = t := by
  unfold keeping
  rw [Interaction.asks_bind]
  exact asks.mono (fun _ holds => holds) fun _ holds => ⟨holds, rfl⟩

/-- The path of a SETSTAT that comes to call the driver is one of `paths`. -/
def PacketWithin (srv : Server) (paths : Bytes → Prop) (typ : UInt8) (payload : Bytes)
    : Prop :=
  ∀ m, typ = fxpSetstat → decodeSetstat typ payload = .ok m
    → setstatCalls srv m.attrs = true → paths m.path

/-- The kind of reply a request allows besides a refusal. -/
def replyKind (typ : UInt8) (payload : Bytes) : Message → Bool :=
  if typ = fxpOpen ∨ typ = fxpOpendir then isHandle
  else if typ = fxpStat ∨ typ = fxpLstat ∨ typ = fxpFstat then isAttrs
  else if typ = fxpRead then isData
  else if typ = fxpReaddir then isName (0 < ·)
  else if typ = fxpRealpath ∨ typ = fxpReadlink then isName (· == 1)
  else if typ = fxpExtended then
    match decodeExtended payload with
    | .ok m => extensionKind m
    | .error _ => isStatus
  else isStatus

/-- A packet that leaves the table alone and only uses files it holds, with its reply; or
one of the four requests that change the table.
-/
inductive Contract (srv : Server) (t : Handles) (paths : Bytes → Prop) (payload : Bytes)
    : UInt8 → Prog (Message × Handles) → Prop where
  | steady {typ : UInt8} {program : Prog (Message × Handles)}
    (asks : program.Asks (Steady srv paths (· ∈ t.files)) fun result =>
      Answers (requestID payload) (replyKind typ payload) result.1 ∧ result.2 = t)
    : Contract srv t paths payload typ program
  | opens {m : OpenRequest} (decodes : decodeOpen payload = .ok m)
    : Contract srv t paths payload fxpOpen (opOpen srv t m)
  | closes {m : HandleRequest} (decodes : decodeHandle fxpClose payload = .ok m)
    : Contract srv t paths payload fxpClose (opClose t m)
  | opendirs {m : PathRequest} (decodes : decodePath fxpOpendir payload = .ok m)
    : Contract srv t paths payload fxpOpendir (opOpendir t m)
  | readdirs {m : HandleRequest} (decodes : decodeHandle fxpReaddir payload = .ok m)
    : Contract srv t paths payload fxpReaddir (opReaddir srv t m)

theorem Contract.keeping {typ : UInt8} {payload : Bytes} {op : Prog Message} {id : UInt32}
    {kind : Message → Bool}
    (asks : op.Asks (Steady srv paths (· ∈ t.files)) (Answers id kind))
    (same : id = requestID payload) (allowed : replyKind typ payload = kind)
    : Contract srv t paths payload typ (keeping t op) := by
  subst same allowed
  exact .steady (keeping_asks asks)

include within wellFormed in
/-- The contract of a dispatched packet. SETSTAT is the one handler whose path is not
resolved, so it is the one that needs `packet`.
-/
theorem dispatch_contract {typ : UInt8} {payload : Bytes}
    (packet : PacketWithin srv paths typ payload)
    : Contract srv t paths payload typ (dispatch srv t typ payload) := by
  have handler := dispatch_handler srv t typ payload
  generalize dispatch srv t typ payload = program at handler
  cases handler with
  | malformed err => exact .steady ⟨answers_refusal _ _ _ (by decide), rfl⟩
  | opens decodes => exact .opens decodes
  | closes decodes => exact .closes decodes
  | stats kind decodes =>
      refine .keeping (opStat_asks within _) (decodePath_id decodes) ?_
      rcases kind with rfl | rfl <;> rfl
  | fstats decodes => exact .keeping (opFstat_asks within t _) (decodeHandle_id decodes) rfl
  | setstats decodes =>
      exact .keeping (opSetstat_asks _ _ _ (packet _ rfl decodes)) (decodeSetstat_id decodes) rfl
  | fsetstats decodes =>
      refine .keeping (opFsetstat_asks t _ ?_) (decodeFsetstat_id decodes) rfl
      exact fun h member => within _ (wellFormed.entries h member).canonical
  | opendirs decodes => exact .opendirs decodes
  | readdirs decodes => exact .readdirs decodes
  | removes kind decodes =>
      refine .keeping (opRemove_asks within _) (decodePath_id decodes) ?_
      rcases kind with rfl | rfl <;> rfl
  | mkdirs decodes => exact .keeping (opMkdir_asks within _) (decodeSetstat_id decodes) rfl
  | realpaths decodes => exact .keeping (opRealpath_asks _) (decodePath_id decodes) rfl
  | renames decodes => exact .keeping (opRename_asks within _) (decodeRename_id decodes) rfl
  | readlinks decodes => exact .keeping (opReadlink_asks within _) (decodePath_id decodes) rfl
  | symlinks decodes => exact .keeping (opSymlink_asks within _) (decodeSymlink_id decodes) rfl
  | extensions decodes =>
      refine .keeping (opExtended_asks wellFormed _) (decodeExtended_id decodes) ?_
      simp [replyKind, decodes, fxpExtended, fxpOpen, fxpOpendir, fxpStat, fxpLstat, fxpFstat,
        fxpRead, fxpReaddir, fxpRealpath, fxpReadlink]
  | unsupported => exact .steady ⟨answers_refusal _ _ _ (by decide), rfl⟩

include within wellFormed in
/-- Every dispatched packet makes sanctioned calls only, is answered under its own id and
keeps the table well-formed.
-/
theorem Contract.sanctioned {typ : UInt8} {payload : Bytes}
    {program : Prog (Message × Handles)} (contract : Contract srv t paths payload typ program)
    : program.Asks (Sanctioned srv paths fun _ => True) fun result =>
        replyID result.1 = requestID payload ∧ result.2.WellFormed srv := by
  cases contract with
  | steady asks =>
      exact asks.mono (fun _ => Steady.sanctioned) fun _ holds =>
        ⟨holds.1.1, holds.2 ▸ wellFormed⟩
  | opens decodes =>
      rw [← decodeOpen_id decodes]
      exact opOpen_asks within wellFormed _
  | closes decodes =>
      rw [← decodeHandle_id decodes]
      exact (opClose_asks wellFormed _).mono (fun _ holds => holds) fun _ holds =>
        ⟨holds.1.1, holds.2⟩
  | opendirs decodes =>
      rw [← decodePath_id decodes]
      exact (opOpendir_asks within wellFormed _).mono (fun _ holds => holds) fun _ holds =>
        ⟨holds.1.1, holds.2⟩
  | @readdirs m decodes =>
      have asks : (opReaddir srv t m).Asks (Steady srv paths (· ∈ t.files)) _ :=
        opReaddir_asks within wellFormed m
      rw [← decodeHandle_id decodes]
      exact asks.mono (fun _ => Steady.sanctioned) fun _ holds => ⟨holds.1.1, holds.2.1⟩

include within wellFormed in
/-- A packet is a barrier, or `prepare` has turned it into a job or a reply. -/
theorem prepare_cases (typ : UInt8) (payload : Bytes)
    : prepare srv t typ payload = (none, none)
      ∨ Prepared srv t paths (requestID payload) (replyKind typ payload)
          (prepare srv t typ payload) := by
  have inside {tok : Bytes} {h : OpenFile} (found : t.get tok = some h) : paths h.path :=
    within h.path (wellFormed.get found).canonical
  have preparation := prepare_preparation srv t typ payload
  generalize prepare srv t typ payload = outcome at preparation
  cases preparation with
  | barrier => exact .inl rfl
  | refused _ refusal => exact .inr (.early (answers_refusal _ _ _ refusal))
  | readsNothing => exact .inr (.early ⟨rfl, rfl⟩)
  | readsAt decodes found _ opened =>
      rw [← decodeRead_id decodes]
      exact .inr (.job (asks_withLock (fun _ => trivial)
        (readAt_asks _ _ _ (Handles.mem_files_of_get found opened))))
  | readsWhole decodes found =>
      rw [← decodeRead_id decodes]
      exact .inr (.job (asks_withLock (fun _ => trivial)
        (readWhole_asks _ _ _ (inside found))))
  | writesAt decodes accepted opened =>
      have owned := mem_files_of_writable wellFormed accepted.found accepted.isFile opened
      rw [← decodeWrite_id decodes]
      exact .inr (.job (asks_withLock (fun _ => trivial) (statusOf_asks _ (by decide)
        ⟨.use rfl rfl accepted.writable (by simpa [DriverCall.files] using owned),
          fun _ => trivial⟩)))
  | rewrites decodes accepted =>
      rw [← decodeWrite_id decodes]
      exact .inr (.job (asks_withLock (fun _ => trivial)
        (writeSplice_asks _ _ _ accepted.writable (inside accepted.found))))

include within wellFormed in
/-- What `prepare` returned, where it did not pass the packet on. -/
theorem prepared_of_prepare {typ : UInt8} {payload : Bytes}
    {outcome : Option Job × Option Message} (prepared : prepare srv t typ payload = outcome)
    (served : outcome ≠ (none, none))
    : Prepared srv t paths (requestID payload) (replyKind typ payload) outcome := by
  subst prepared
  exact (prepare_cases within wellFormed typ payload).resolve_left served

end Packets

end SftpServer.Sftp
