import SftpServer.Concurrency.Jobs
import SftpServer.Correctness.Requests
import SftpServer.Wire.RoundTrip

/-! How large replies are. A reply that does not fit a packet cannot be framed and ends its
session. Apart from listings and link targets none is that large: paths, error texts, names of
extensions and data are cut off, each at a limit of its own.
-/

namespace SftpServer.Sftp

open SftpServer.Foundations
open SftpServer.Wire

/-- The type byte and the payload are within `wire.MaxPacket`. -/
def Fits (m : Message) : Prop := 1 + m.payload.length ≤ maxPacket

/-- What fits is framed, and nothing else is. -/
theorem frame_ok_iff (m : Message) (out : Bytes)
    : (∃ framed, (frame m out).1 = .ok framed) ↔ Fits m := by
  simp only [frame, send, writePacket, Fits]
  split
  · rename_i large
    exact iff_of_false (not_exists.mpr fun _ same => by cases same) (Nat.not_le.mpr large)
  · rename_i small
    exact iff_of_true ⟨_, rfl⟩ (Nat.not_lt.mp small)

-----------------------------------------------------------------------------------------
-- What each reply occupies
-----------------------------------------------------------------------------------------

theorem length_lengthPrefixed (s : Bytes) : (lengthPrefixed s).length = 4 + s.length := by
  rw [lengthPrefixed, List.length_append, BigEndian.length_encode]

theorem fits_status (id : UInt32) (code : Status) {msg : Bytes}
    (short : msg.length ≤ defaultLimit + 64)
    : Fits (status id code msg) := by
  have limit : defaultLimit = 262144 := rfl
  have bound : maxPacket = 266240 := rfl
  simp only [Fits, Message.payload_eq_bytes, status, Message.bytes, List.length_append,
    BigEndian.length_encode, length_lengthPrefixed, List.length_nil]
  omega

theorem length_errText (err : Option DriverError) : (errText err).length ≤ 515 := by
  cases err with
  | none => exact Nat.zero_le _
  | some err =>
      have mark : (text "…").length = 3 := by decide
      simp only [errText]
      split
      · rw [List.length_append, mark]
        have cut := List.length_take_le 512 err.message
        omega
      · omega

theorem fits_errText (id : UInt32) (code : Status) (err : Option DriverError)
    : Fits (status id code (errText err)) :=
  fits_status id code ((length_errText err).trans (by decide))

theorem fits_statusErr (id : UInt32) (err : Option DriverError) (fallback : Status)
    : Fits (statusErr id err fallback) :=
  fits_errText id _ err

theorem fits_resolve {id : UInt32} {p : Bytes} {bad : Message}
    (refused : resolve id p = .error bad)
    : Fits bad := by
  rw [refusal_of_resolve refused]
  exact fits_status _ _ (by decide)

theorem fits_data (id : UInt32) {data : Bytes} (short : data.length ≤ maxReadLength)
    : Fits (.dataReply { id, data }) := by
  have limit : maxReadLength = 261120 := rfl
  have bound : maxPacket = 266240 := rfl
  simp only [Fits, Message.payload_eq_bytes, Message.bytes, List.length_append,
    BigEndian.length_encode, length_lengthPrefixed]
  omega

theorem fits_handle (id : UInt32) {tok : Bytes} (short : tok.length = 2 * handleBytes)
    : Fits (.handleReply { id, handle := tok }) := by
  have half : handleBytes = 16 := rfl
  have bound : maxPacket = 266240 := rfl
  simp only [Fits, Message.payload_eq_bytes, Message.bytes, List.length_append,
    BigEndian.length_encode, length_lengthPrefixed]
  omega

/-- The attributes of a file: the flags, the size, the owner, the mode and two times. -/
theorem length_attrsFromStat (srv : Server) (st : Stat)
    : (srv.attrsFromStat st).bytes.length = 32 := by
  have flags : (srv.attrsFromStat st).flags
      = attrSize ||| attrUIDGID ||| attrPermissions ||| attrACModTime := rfl
  have announced : (srv.attrsFromStat st).has attrSize = true
      ∧ (srv.attrsFromStat st).has attrUIDGID = true
      ∧ (srv.attrsFromStat st).has attrPermissions = true
      ∧ (srv.attrsFromStat st).has attrACModTime = true
      ∧ (srv.attrsFromStat st).has attrExtended = false := by
    simp only [Attributes.has, flags]
    decide
  obtain ⟨size, owner, mode, times, extended⟩ := announced
  simp [Attributes.bytes, size, owner, mode, times, extended, BigEndian.length_encode]

theorem fits_attrs (srv : Server) (id : UInt32) (st : Stat)
    : Fits (.attrsReply { id, attrs := srv.attrsFromStat st }) := by
  have bound : maxPacket = 266240 := rfl
  simp only [Fits, Message.payload_eq_bytes, Message.bytes, List.length_append,
    BigEndian.length_encode, length_attrsFromStat]
  omega

/-- A NAME: its count, and two strings and the attributes for each item. -/
theorem length_nameReply (m : NameReply)
    : (Message.nameReply m).payload.length
      = 8 + (m.items.map fun it =>
          8 + it.filename.length + it.longname.length + it.attrs.bytes.length).sum := by
  have each : ∀ it : NameItem, it.bytes.length
      = 8 + it.filename.length + it.longname.length + it.attrs.bytes.length := by
    intro it
    simp only [NameItem.bytes, List.length_append, length_lengthPrefixed]
    omega
  simp only [Message.payload_eq_bytes, Message.bytes, List.length_append,
    BigEndian.length_encode, List.length_flatMap, each]
  omega

/-- A NAME of one string, which goes out twice and without attributes. -/
theorem fits_echo_iff (id : UInt32) (name : Bytes)
    : Fits (.nameReply { id, items := [{ filename := name, longname := name }] })
      ↔ 21 + 2 * name.length ≤ maxPacket := by
  have none : ({} : Attributes).bytes.length = 4 := by decide
  simp only [Fits, length_nameReply, List.map_cons, List.map_nil, List.sum_cons, List.sum_nil,
    none]
  omega

theorem fits_limits (srv : Server) (id : UInt32) : Fits (limitsReply srv id) := by
  have bound : maxPacket = 266240 := rfl
  simp only [Fits, limitsReply, Message.payload_eq_bytes, Message.bytes, List.length_append,
    BigEndian.length_encode, List.flatMap_cons, List.flatMap_nil, List.length_nil]
  omega

-----------------------------------------------------------------------------------------
-- The replies of each handler
-----------------------------------------------------------------------------------------

/-- Whatever it is answered, the request is answered with a reply that fits. -/
def RepliesFit (op : Prog Message) : Prop := op.Asks (fun _ => True) Fits

/-- The same of a request that may change the table. -/
def AnswersFit (op : Prog (Message × Handles)) : Prop :=
  op.Asks (fun _ => True) fun result => Fits result.1

/-- Both ask whether results fit, so what comes before the last step does not matter. -/
theorem fit_bind {α β : Type} {first : Prog α} {rest : α → Prog β} {Q : β → Prop}
    (fits : ∀ value, (rest value).Asks (fun _ => True) Q)
    : (first >>= rest).Asks (fun _ => True) Q := by
  rw [Interaction.asks_bind]
  exact (Interaction.asks_true first).mono (fun _ _ => trivial) fun value _ => fits value

theorem fit_withLock {α : Type} {acquire release : LockOp} {body : Prog α} {Q : α → Prop}
    (fits : body.Asks (fun _ => True) Q)
    : (withLock acquire release body).Asks (fun _ => True) Q :=
  asks_withLock (fun _ => trivial) fits

theorem answersFit_keeping {t : Handles} {op : Prog Message} (fits : RepliesFit op)
    : AnswersFit (keeping t op) := by
  rw [AnswersFit, keeping, Interaction.asks_bind]
  exact fits

theorem statusOf_fits (id : UInt32) (call : Prog (Option DriverError)) (fallback : Status)
    : RepliesFit (statusOf id call fallback) := by
  refine fit_bind fun answer => ?_
  cases answer with
  | none => exact fits_status _ _ (Nat.zero_le _)
  | some err => exact fits_statusErr id err fallback

/-- A mutation by path: refused on a read-only export or for its path, or one driver call. -/
theorem mutation_fits {srv : Server} {id : UInt32} {p : Bytes} {op : Bytes → Prog Message}
    (fits : ∀ path, RepliesFit (op path))
    : RepliesFit (do
        if srv.ro then
          return status id statusPermissionDenied errReadOnly
        match resolve id p with
        | .error bad => return bad
        | .ok path => op path) :=
  asks_mutation (fits_status _ _ (by decide)) (fun _ resolved => fits_resolve resolved)
    fun _ path _ => fits path

section Handlers

variable (srv : Server) (t : Handles)

theorem opStat_fits (m : PathRequest) : RepliesFit (opStat srv m) := by
  simp only [opStat]
  cases resolved : resolve m.id m.path with
  | error bad => exact fits_resolve resolved
  | ok path =>
      refine fit_withLock (fit_bind fun answer => ?_)
      rcases answer with err | none | st
      · exact fits_statusErr m.id err _
      · exact fits_status _ _ (by decide)
      · exact fits_attrs srv m.id st

theorem opFstat_fits (m : HandleRequest) : RepliesFit (opFstat srv t m) := by
  simp only [opFstat]
  split
  · exact fits_status _ _ (by decide)
  · exact opStat_fits srv _

theorem opMkdir_fits (m : SetstatRequest) : RepliesFit (opMkdir srv m) :=
  mutation_fits fun _ => fit_withLock (statusOf_fits m.id _ _)

theorem opRemove_fits (m : PathRequest) : RepliesFit (opRemove srv m) :=
  mutation_fits fun _ => fit_withLock (statusOf_fits m.id _ _)

theorem opRename_fits (m : RenameRequest) : RepliesFit (opRename srv m) := by
  refine mutation_fits fun oldPath => ?_
  cases resolved : resolve m.id m.newPath with
  | error bad => exact fits_resolve resolved
  | ok newPath => exact fit_withLock (statusOf_fits m.id _ _)

theorem opSymlink_fits (m : SymlinkRequest) : RepliesFit (opSymlink srv m) := by
  refine mutation_fits fun linkPath => ?_
  split
  · exact fits_status _ _ (by decide)
  · exact fit_withLock (statusOf_fits m.id _ _)

/-- REALPATH sends a cleaned path twice. -/
theorem opRealpath_fits (m : PathRequest) : RepliesFit (opRealpath m) := by
  simp only [opRealpath]
  cases resolved : resolve m.id m.path with
  | error bad => exact fits_resolve resolved
  | ok path =>
      have short := length_clean (clean_of_resolve resolved)
      have limit : maxPath = 4096 := rfl
      have bound : maxPacket = 266240 := rfl
      exact (fits_echo_iff m.id path).mpr (by omega)

theorem setSize_fits (id : UInt32) (path : Bytes) (a : Attributes)
    : (setSize srv id path a).Asks (fun _ => True) (Refusing Fits True) := by
  simp only [setSize]
  split_ifs
  · trivial
  · exact fits_status _ _ (by decide)
  · exact fits_status _ _ (by decide)
  · refine .call trivial fun answer => ?_
    cases answer with
    | none => trivial
    | some err => exact fits_statusErr id err _

theorem setAttribute_fits (id : UInt32) (announced : Bool) (call : Prog (Option DriverError))
    : (setAttribute id announced call).Asks (fun _ => True) (Refusing Fits True) := by
  simp only [setAttribute]
  split
  · trivial
  refine fit_bind fun answer => ?_
  cases answer with
  | none => trivial
  | some err => exact fits_statusErr id err _

theorem opSetstat_fits (id : UInt32) (path : Bytes) (a : Attributes)
    : RepliesFit (opSetstat srv id path a) := by
  simp only [opSetstat]
  split
  · exact fits_status _ _ (by decide)
  have done : Fits (status id statusOK []) := fits_status _ _ (Nat.zero_le _)
  refine fit_withLock (asks_refusing (setSize_fits srv id path a) fun _ => ?_)
  unfold setMetadata
  split
  · exact done
  refine asks_refusing (setAttribute_fits id _ _) fun _ => ?_
  refine asks_refusing (setAttribute_fits id _ _) fun _ => ?_
  exact asks_refusing (setAttribute_fits id _ _) fun _ => done

theorem opFsetstat_fits (m : FsetstatRequest) : RepliesFit (opFsetstat srv t m) := by
  simp only [opFsetstat]
  split
  · exact fits_status _ _ (by decide)
  · exact opSetstat_fits srv m.id _ m.attrs

theorem copyLocked_fits (id : UInt32) (src dst : File) (m : CopyRequest)
    : RepliesFit (copyLocked id src dst m) := by
  refine fit_bind fun size => fit_bind fun targetSize =>
    fit_bind fun grown => ?_
  cases grown with
  | none => exact statusOf_fits id _ _
  | some err => exact fits_statusErr id err _

theorem copyData_fits (id : UInt32) (data : Bytes) : RepliesFit (copyData srv t id data) := by
  have outcome := copyData_outcome srv t id data
  generalize copyData srv t id data = program at outcome
  cases outcome with
  | refused _ _ short => exact fits_status _ _ (short.trans (by decide))
  | served => exact fit_withLock (copyLocked_fits id _ _ _)

/-- The name of an extension that is not served is sent back. -/
theorem opExtended_fits {m : ExtendedRequest} (short : m.name.length ≤ defaultLimit)
    : RepliesFit (opExtended srv t m) := by
  simp only [opExtended]
  split_ifs
  · exact fits_limits srv m.id
  · exact copyData_fits srv t m.id m.data
  · have lead : (text "unsupported extension: ").length = 23 := by decide
    exact fits_status _ _ (by rw [List.length_append, lead]; omega)

/-- A handle is stored and its token sent, or the random source failed. -/
theorem answersFit_add {h : OpenFile} {rest : Except DriverError (Bytes × Handles)
      → Prog (Message × Handles)}
    (failed : ∀ err, AnswersFit (rest (.error err)))
    (stored : ∀ tok later, tok.length = 2 * handleBytes → AnswersFit (rest (.ok (tok, later))))
    : AnswersFit (t.add h >>= rest) := by
  refine ⟨trivial, fun answer => ?_⟩
  rcases answer with err | drawn
  · exact failed err
  · exact stored _ _ (by rw [length_hexEncode, Vector.length_toList])

theorem registerHandle_fits (id : UInt32) (h : OpenFile)
    : AnswersFit (registerHandle t id h) := by
  refine answersFit_add t (fun err => ?_) fun tok later short => fits_handle id short
  exact fit_bind fun _ => fits_errText id _ err

theorem finishOpen_fits (id : UInt32) (path : Bytes) (write : Bool)
    : AnswersFit (finishOpen srv t id path write) := by
  simp only [finishOpen]
  split
  · exact registerHandle_fits t id _
  refine fit_bind fun answer => ?_
  rcases answer with err | none | file
  · exact fits_statusErr id err _
  · exact fits_status _ _ (by decide)
  dsimp only
  split
  · exact registerHandle_fits t id _
  split
  · exact registerHandle_fits t id _
  refine fit_bind fun closed => ?_
  cases closed with
  | none => exact registerHandle_fits t id _
  | some err => exact fits_statusErr id err _

theorem openForWrite_fits (m : OpenRequest) (path : Bytes) (st : Option Stat)
    (statErr : Option DriverError)
    : AnswersFit (openForWrite srv t m path st statErr) := by
  simp only [openForWrite]
  split
  · exact fits_status _ _ (by decide)
  split
  · exact fits_statusErr m.id statErr _
  split
  · refine fit_bind fun written => ?_
    cases written with
    | none => exact finishOpen_fits srv t m.id path true
    | some err => exact fits_statusErr m.id err _
  · exact finishOpen_fits srv t m.id path true

theorem openStated_fits (m : OpenRequest) (path : Bytes) (st : Option Stat)
    (statErr : Option DriverError)
    : AnswersFit (openStated srv t m path st statErr) := by
  simp only [openStated]
  split
  · exact fits_status _ _ (by decide)
  split
  · exact openForWrite_fits srv t m path st statErr
  split
  · exact fits_statusErr m.id statErr _
  · exact finishOpen_fits srv t m.id path false

theorem opOpen_fits (m : OpenRequest) : AnswersFit (opOpen srv t m) := by
  simp only [opOpen]
  cases resolved : resolve m.id m.path with
  | error bad => exact fits_resolve resolved
  | ok path =>
      dsimp only
      split
      · exact fits_status _ _ (by decide)
      split
      · exact fits_status _ _ (by decide)
      refine fit_withLock (fit_bind fun answer => ?_)
      cases answer with
      | error err => exact openStated_fits srv t m path none (some err)
      | ok st => exact openStated_fits srv t m path st none

theorem opOpendir_fits (m : PathRequest) : AnswersFit (opOpendir t m) := by
  simp only [opOpendir]
  cases resolved : resolve m.id m.path with
  | error bad => exact fits_resolve resolved
  | ok path =>
      dsimp only
      split
      · exact fits_status _ _ (by decide)
      refine fit_withLock (fit_bind fun answer => ?_)
      rcases answer with err | none | st
      · exact fits_statusErr m.id err _
      · exact fits_status _ _ (by decide)
      dsimp only
      split
      · exact fits_status _ _ (by decide)
      refine fit_bind fun listing => ?_
      cases listing with
      | error err => exact fits_statusErr m.id err _
      | ok entries =>
          exact answersFit_add t (fun err => fits_errText m.id _ err)
            fun tok later short => fits_handle m.id short

theorem opClose_fits (m : HandleRequest) : AnswersFit (opClose t m) := by
  simp only [opClose]
  split
  · exact fits_status _ _ (by decide)
  refine fit_withLock (fit_bind fun syncErr => fit_bind fun closeErr => ?_)
  split
  · exact fits_statusErr m.id _ _
  · exact fits_status _ _ (Nat.zero_le _)

end Handlers

-----------------------------------------------------------------------------------------
-- Whole requests
-----------------------------------------------------------------------------------------

/-- The name of an extension is within the limit of a string. -/
theorem decodeExtended_name {payload : Bytes} {m : ExtendedRequest}
    (decodes : decodeExtended payload = .ok m)
    : m.name.length ≤ defaultLimit := by
  obtain ⟨last, accepts⟩ := Decode.run_inv decodes
  obtain ⟨id, first, counted, accepts⟩ := Decode.bind_inv accepts
  obtain ⟨name, second, named, accepts⟩ := Decode.bind_inv accepts
  obtain ⟨data, third, _, accepts⟩ := Decode.bind_inv accepts
  cases accepts
  have limit : first.limit = 0 := Decode.limit_uint32 counted
  exact Decode.length_string limit.le named

/-- Every request that runs alone, apart from READDIR and READLINK. -/
theorem dispatch_fits (srv : Server) (t : Handles) {typ : UInt8} (payload : Bytes)
    (noReaddir : typ ≠ fxpReaddir) (noReadlink : typ ≠ fxpReadlink)
    : AnswersFit (dispatch srv t typ payload) := by
  have handler := dispatch_handler srv t typ payload
  generalize dispatch srv t typ payload = program at handler
  cases handler with
  | malformed err => exact fits_errText _ _ _
  | opens decodes => exact opOpen_fits srv t _
  | closes decodes => exact opClose_fits t _
  | stats kind decodes => exact answersFit_keeping (opStat_fits srv _)
  | fstats decodes => exact answersFit_keeping (opFstat_fits srv t _)
  | setstats decodes => exact answersFit_keeping (opSetstat_fits srv _ _ _)
  | fsetstats decodes => exact answersFit_keeping (opFsetstat_fits srv t _)
  | opendirs decodes => exact opOpendir_fits t _
  | readdirs decodes => exact absurd rfl noReaddir
  | removes kind decodes => exact answersFit_keeping (opRemove_fits srv _)
  | mkdirs decodes => exact answersFit_keeping (opMkdir_fits srv _)
  | realpaths decodes => exact answersFit_keeping (opRealpath_fits _)
  | renames decodes => exact answersFit_keeping (opRename_fits srv _)
  | readlinks decodes => exact absurd rfl noReadlink
  | symlinks decodes => exact answersFit_keeping (opSymlink_fits srv _)
  | extensions decodes =>
      exact answersFit_keeping (opExtended_fits srv t (decodeExtended_name decodes))
  | unsupported => exact fits_status _ _ (by decide)

/-- `ReadAt` returns at most what its buffer holds. -/
def ShortRead : Event → Prop
  | ⟨.driver (.fileReadAt _ length _), (got, _)⟩ => got.length ≤ length
  | _ => True

/-- What a READ of `n` bytes is answered with: that much data at most, or a short text. -/
inductive ReadReply (n : Nat) : Message → Prop where
  | data {id : UInt32} {data : Bytes} (short : data.length ≤ n)
    : ReadReply n (.dataReply { id, data })
  | refused {id : UInt32} {code : Status} {msg : Bytes} (short : msg.length ≤ 515)
    : ReadReply n (status id code msg)

theorem ReadReply.fits {n : Nat} {reply : Message} (reads : ReadReply n reply)
    (bound : n ≤ maxReadLength)
    : Fits reply := by
  cases reads with
  | data short => exact fits_data _ (short.trans bound)
  | refused short => exact fits_status _ _ (short.trans (by decide))

theorem ReadReply.mono {n m : Nat} {reply : Message} (reads : ReadReply n reply)
    (bound : n ≤ m)
    : ReadReply m reply := by
  cases reads with
  | data short => exact .data (short.trans bound)
  | refused short => exact .refused short

theorem readAt_readReply {id : UInt32} {f : File} {off : UInt64} {n : Nat}
    {calls : List Event} {reply : Message} (runs : (readAt id f off n).Runs calls reply)
    (short : ∀ event ∈ calls, ShortRead event)
    : ReadReply n reply := by
  unfold readAt at runs
  split at runs
  · rw [(Interaction.runs_ret_iff.mp runs).2]
    exact .refused (Nat.zero_le _)
  obtain ⟨⟨got, err⟩, rest, rfl, left⟩ := Interaction.runs_call_iff.mp runs
  have whole : got.length ≤ n := short _ List.mem_cons_self
  -- What is left asks nothing more.
  refine (Interaction.Asks.of_runs (?_ : Interaction.Asks (fun _ => True) _ _) left).2
  dsimp only
  split
  · exact .data whole
  split
  · exact .refused (Nat.zero_le _)
  split
  · exact .refused (Nat.zero_le _)
  · exact .refused (length_errText _)

/-- The part of a file that is read whole is as long as was asked for, or shorter. -/
theorem readWhole_readReply (id : UInt32) (path : Bytes) (off : UInt64) (n : Nat)
    : (readWhole id path off n).Asks (fun _ => True) (ReadReply n) := by
  refine fit_bind fun answer => ?_
  cases answer with
  | error err => exact .refused (length_errText _)
  | ok data =>
      dsimp only
      split
      · exact .refused (Nat.zero_le _)
      · refine .data ?_
        simp only [List.length_drop, List.length_take, satAdd]
        omega

/-- The two jobs of a READ, with their locks. -/
theorem lockedReadAt_readReply {id : UInt32} {f : File} {off : UInt64} {n : Nat}
    {calls : List Event} {reply : Message}
    (runs : (lockedIo (readAt id f off n)).Runs calls reply)
    (short : ∀ event ∈ calls, ShortRead event)
    : ReadReply n reply := by
  obtain ⟨inner, rfl, reads⟩ := runs_withLock runs
  exact readAt_readReply reads fun event member => short event (by simp [member])

theorem lockedReadWhole_readReply {id : UInt32} {path : Bytes} {off : UInt64} {n : Nat}
    {calls : List Event} {reply : Message}
    (runs : (rlocked (readWhole id path off n)).Runs calls reply)
    : ReadReply n reply :=
  ((fit_withLock (readWhole_readReply id path off n)).of_runs runs).2

theorem writeSplice_fits (id : UInt32) (path : Bytes) (off : UInt64) (data : Bytes)
    : RepliesFit (writeSplice id path off data) := by
  refine fit_bind fun answer => ?_
  cases answer with
  | error err => exact fits_statusErr id err _
  | ok old =>
      dsimp only
      split
      · exact fits_status _ _ (by decide)
      · exact statusOf_fits id _ _

theorem runs_keeping {t : Handles} {op : Prog Message} {calls : List Event}
    {result : Message × Handles} (runs : (keeping t op).Runs calls result)
    : ∃ inner, inner ⊆ calls ∧ op.Runs inner result.1 := by
  obtain ⟨inner, late, value, rfl, first, second⟩ := runs.bind_split
  obtain ⟨_, rfl⟩ := Interaction.runs_ret_iff.mp second
  exact ⟨inner, List.subset_append_left inner late, first⟩

theorem readLength_le (srv : Server) (n : Nat) : min n srv.readLength ≤ maxReadLength :=
  (Nat.min_le_right _ _).trans (Nat.min_le_left _ _)

/-- A READ or WRITE that is prepared. -/
theorem job_fits {srv : Server} {t : Handles} {typ : UInt8} {payload : Bytes} {job : Job}
    (prepared : prepare srv t typ payload = (some job, none)) {calls : List Event}
    {reply : Message} (runs : job.run.Runs calls reply)
    (short : ∀ event ∈ calls, ShortRead event)
    : Fits reply := by
  have preparation := prepare_preparation srv t typ payload
  rw [prepared] at preparation
  cases preparation with
  | readsAt => exact (lockedReadAt_readReply runs short).fits (readLength_le srv _)
  | readsWhole => exact (lockedReadWhole_readReply runs).fits (readLength_le srv _)
  | writesAt => exact ((fit_withLock (statusOf_fits _ _ _)).of_runs runs).2
  | rewrites => exact ((fit_withLock (writeSplice_fits _ _ _ _)).of_runs runs).2

/-- A READ or WRITE that is answered at once. -/
theorem early_fits {srv : Server} {t : Handles} {typ : UInt8} {payload : Bytes}
    {reply : Message} (prepared : prepare srv t typ payload = (none, some reply))
    : Fits reply := by
  have preparation := prepare_preparation srv t typ payload
  rw [prepared] at preparation
  cases preparation with
  | refused _ _ short => exact fits_status _ _ (short.trans (by decide))
  | readsNothing => exact fits_data _ (Nat.zero_le _)

/-- Every request other than READDIR and READLINK, on any table. -/
theorem answer_fits {srv : Server} {t later : Handles} {typ : UInt8} {payload : Bytes}
    {calls : List Event} {reply : Message}
    (runs : (answer srv t typ payload).Runs calls (reply, later))
    (short : ∀ event ∈ calls, ShortRead event) (noReaddir : typ ≠ fxpReaddir)
    (noReadlink : typ ≠ fxpReadlink)
    : Fits reply := by
  unfold answer at runs
  split at runs
  · rename_i job other prepared
    obtain ⟨inner, seen, runs⟩ := runs_keeping runs
    have served : other = none := by
      have either := prepare_either srv t typ payload
      rw [prepared] at either
      exact either.resolve_left nofun
    rw [served] at prepared
    exact job_fits prepared runs fun event member => short event (seen member)
  · rename_i early prepared
    obtain ⟨_, same⟩ := Interaction.runs_ret_iff.mp runs
    cases same
    exact early_fits prepared
  · exact ((dispatch_fits srv t payload noReaddir noReadlink).of_runs runs).2

/-- In every run of a session with a driver whose `ReadAt` keeps to its buffer, and whatever
packet limit is configured: every reply to a request other than READDIR and READLINK is within
`wire.MaxPacket` and is framed.
-/
theorem replies_fit {srv : Server} {s : Session} {trace : List Observation}
    (run : Session.Run srv Session.initial trace s)
    (short : ∀ event ∈ effects trace, ShortRead event) {typ : UInt8} {payload : Bytes}
    {reply : Message} (replied : .replied typ payload reply ∈ trace)
    (noReaddir : typ ≠ fxpReaddir) (noReadlink : typ ≠ fxpReadlink)
    : 1 + reply.payload.length ≤ maxPacket
      ∧ ∀ out, ∃ framed, (frame reply out).1 = .ok framed := by
  obtain ⟨early, earlier, _, calls, later, seen, runs⟩ := run.answered_on replied
  have fits : Fits reply :=
    answer_fits runs (fun event member => short event (seen member)) noReaddir noReadlink
  exact ⟨fits, fun out => (frame_ok_iff reply out).mpr fits⟩

/-- READ of three bytes through the handle whose random bytes are all zero. -/
def readThree : Bytes :=
  [0, 0, 0, 2, 0, 0, 0, 32] ++ List.replicate 32 0x30 ++ [0, 0, 0, 0, 0, 0, 0, 0, 0, 0, 0, 3]

/-- A client opens a file and is sent the two bytes it has. -/
theorem Session.Run.readingTwo
    : ∃ trace s,
        Session.Run readOnlyServer Session.initial trace s
        ∧ (∀ event ∈ effects trace, ShortRead event)
        ∧ .replied fxpRead readThree (.dataReply { id := 2, data := [7, 8] }) ∈ trace := by
  have opened := (Session.Run.negotiating readOnlyServer).trans
    (.dispatching fxpOpen openForReading rfl rfl rfl
      (Interaction.interpret_runs (fun (_ : Unit) _ => (default, ())) () _))
  have started := opened.trans (.starting fxpRead readThree rfl rfl)
  have locked := started.trans (.single (@Session.Step.flew _ _ [] [] _ _ _ () rfl rfl))
  have got := locked.trans
    (.single (@Session.Step.flew _ _ [] [] _ _ _ ([7, 8], none) rfl rfl))
  have unlocked := got.trans (.single (@Session.Step.flew _ _ [] [] _ _ _ () rfl rfl))
  have landed := unlocked.trans (.single (@Session.Step.landed _ _ [] [] _ _ rfl rfl))
  refine ⟨_, _, landed, ?_, List.mem_append_right _ (List.mem_singleton.mpr rfl)⟩
  have two : ([7, 8] : Bytes).length ≤ 3 := Nat.le_succ 2
  -- The five effects of OPEN and the lock come first.
  iterate 6 refine List.forall_mem_cons.mpr ⟨trivial, ?_⟩
  refine List.forall_mem_cons.mpr ⟨two, ?_⟩
  exact List.forall_mem_cons.mpr ⟨trivial, List.forall_mem_nil _⟩

/-- Two bytes of data are framed. -/
theorem replies_fit_reading
    : ∃ trace s,
        Session.Run readOnlyServer Session.initial trace s
        ∧ .replied fxpRead readThree (.dataReply { id := 2, data := [7, 8] }) ∈ trace
        ∧ ∀ out, ∃ framed,
            (frame (.dataReply { id := 2, data := [7, 8] }) out).1 = .ok framed := by
  obtain ⟨trace, s, run, short, replied⟩ := Session.Run.readingTwo
  exact ⟨trace, s, run, replied, (replies_fit run short replied (by decide) (by decide)).2⟩

end SftpServer.Sftp
