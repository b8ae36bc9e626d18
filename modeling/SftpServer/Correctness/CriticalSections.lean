import SftpServer.Correctness.Dispatching

/-! The shape of the requests that run alone: a reply at once, or one critical section, shared
or exclusive, and the reply after it. What a section asks, and what a READ or WRITE asks in
its own, is walked through once, for every property that holds of the calls it is made of.
-/

namespace SftpServer.Sftp

open SftpServer.Foundations
open SftpServer.Wire

/-- The call names a position in a file. -/
def DriverCall.isPlaced : DriverCall → Bool
  | .fileReadAt _ _ _ | .fileWriteAt _ _ _ | .truncate _ _ | .fileTruncate _ _
  | .copyRange _ _ _ _ _ => true
  | .stat _ | .listDir _ | .readFile _ | .readLink _ | .writeFile _ _ _ | .mkDir _ _
  | .deleteFile _ | .deleteDir _ | .rename _ _ | .symlink _ _ | .chmod _ _ | .chown _ _ _
  | .chtimes _ _ _ | .openFile _ | .fileSize _ | .fileSync _ | .fileClose _ => false

/-- The property holds of what a shared section asks. -/
structure SharedCalls (S : Effect → Prop) : Prop where
  stat (path : Bytes) : S (.driver (.stat path))
  listDir (path : Bytes) : S (.driver (.listDir path))
  readLink (path : Bytes) : S (.driver (.readLink path))
  randRead : S .randRead

/-- The property holds of what an exclusive section asks, if it is not that of a copy. -/
structure ExclusiveCalls (P : Effect → Prop) : Prop where
  unplaced (call : DriverCall) (plain : call.isPlaced = false) : P (.driver call)
  truncate (path : Bytes) (size : UInt64) (fits : size ≤ maxInt64)
    : P (.driver (.truncate path size.toInt64))
  randRead : P .randRead

/-- A reply at once, or one section that asks only `S` if it is shared and `P` if it is
exclusive.
-/
inductive OneSection {α : Type} (S P : Effect → Prop) : Prog α → Prop where
  | reply (value : α) : OneSection S P (.ret value)
  | shared {body : Prog α} (asks : body.Asks S fun _ => True) : OneSection S P (rlocked body)
  | exclusive {body : Prog α} (asks : body.Asks P fun _ => True) : OneSection S P (locked body)

/-- What is done with the result can as well be done in the section. -/
theorem keeping_withLock (t : Handles) (acquire release : LockOp) (body : Prog Message)
    : keeping t (withLock acquire release body) = withLock acquire release (keeping t body) := by
  simp [keeping, withLock, Interaction.bind_assoc]

theorem OneSection.keeping {S P : Effect → Prop} {t : Handles} {op : Prog Message}
    (one : OneSection S P op)
    : OneSection S P (keeping t op) := by
  cases one with
  | reply value => exact .reply (value, t)
  | shared asks =>
      rw [rlocked, keeping_withLock]
      exact .shared (asks.seq fun _ => trivial)
  | exclusive asks =>
      rw [locked, keeping_withLock]
      exact .exclusive (asks.seq fun _ => trivial)

section Steps

variable {P : Effect → Prop}

theorem statusOf_calls {id : UInt32} {call : Prog (Option DriverError)} {fallback : Status}
    (asks : call.Asks P fun _ => True)
    : (statusOf id call fallback).Asks P fun _ => True :=
  asks.seq fun answer => by cases answer <;> trivial

theorem add_calls (t : Handles) (h : OpenFile) (random : P .randRead)
    : (t.add h).Asks P fun _ => True :=
  (add_asks t h random).mono (fun _ holds => holds) fun _ _ => trivial

end Steps

-----------------------------------------------------------------------------------------
-- Shared sections
-----------------------------------------------------------------------------------------

section Shared

variable {srv : Server} {t : Handles} {S P : Effect → Prop} (calls : SharedCalls S)

include calls in
theorem opStat_section (m : PathRequest) : OneSection S P (opStat srv m) := by
  unfold opStat
  split
  · exact .reply _
  refine .shared (.call (calls.stat _) fun answer => ?_)
  rcases answer with err | none | st <;> trivial

include calls in
theorem opFstat_section (m : HandleRequest) : OneSection S P (opFstat srv t m) := by
  unfold opFstat
  split
  · exact .reply _
  · exact opStat_section calls _

theorem opRealpath_section (m : PathRequest) : OneSection S P (opRealpath m) := by
  unfold opRealpath
  split <;> exact .reply _

include calls in
theorem opReadlink_section (m : PathRequest) : OneSection S P (opReadlink m) := by
  unfold opReadlink
  split
  · exact .reply _
  refine .shared (.call (calls.readLink _) fun answer => ?_)
  cases answer <;> trivial

include calls in
theorem opOpendir_section (m : PathRequest) : OneSection S P (opOpendir t m) := by
  unfold opOpendir
  split
  · exact .reply _
  split
  · exact .reply _
  refine .shared (.call (calls.stat _) fun answer => ?_)
  rcases answer with err | none | st
  · trivial
  · trivial
  dsimp only
  split
  · trivial
  refine .call (calls.listDir _) fun listed => ?_
  cases listed with
  | error err => trivial
  | ok entries =>
      refine (add_calls t _ calls.randRead).seq fun added => ?_
      cases added <;> trivial

include calls in
theorem readdirItem_calls (dir : Bytes) (e : DirEntry)
    : (readdirItem srv dir e).Asks S fun _ => True := by
  unfold readdirItem
  split
  · trivial
  refine .call (calls.stat _) fun answer => ?_
  rcases answer with err | none | st <;> trivial

include calls in
theorem readdirItems_calls (dir : Bytes) (batch : List DirEntry)
    : (readdirItems srv dir batch).Asks S fun _ => True := by
  induction batch with
  | nil => trivial
  | cons e rest ih =>
      exact (readdirItem_calls calls dir e).seq fun _ => ih.seq fun _ => trivial

include calls in
/-- The loop keeps asking for the same, by induction along its own recursion. -/
theorem readdirLoop_calls (dir : Bytes) (entries : List DirEntry) (pos : Nat)
    : (readdirLoop srv dir entries pos).Asks S fun _ => True := by
  induction pos using readdirLoop.induct entries with
  | case1 pos more stop ih =>
      rw [readdirLoop, dif_pos more]
      refine (readdirItems_calls calls dir _).seq fun items => ?_
      split
      · exact ih
      · trivial
  | case2 pos done =>
      rw [readdirLoop, dif_neg done]
      trivial

include calls in
theorem opReaddir_section (m : HandleRequest) : OneSection S P (opReaddir srv t m) := by
  unfold opReaddir
  split
  · exact .reply _
  split
  · exact .reply _
  refine .shared ((readdirLoop_calls calls _ _ _).seq fun read => ?_)
  dsimp only
  split <;> trivial

end Shared

-----------------------------------------------------------------------------------------
-- Exclusive sections
-----------------------------------------------------------------------------------------

section Exclusive

variable {srv : Server} {t : Handles} {S P : Effect → Prop} (calls : ExclusiveCalls P)

include calls in
theorem ExclusiveCalls.call {call : DriverCall} (plain : call.isPlaced = false)
    : Interaction.Asks P (fun _ => True) (.ask (.driver call) .ret : Prog call.Answer) :=
  ⟨calls.unplaced call plain, fun _ => trivial⟩

/-- A mutation by path: refused on a read-only export or for its path, or carried out. -/
theorem mutation_section {id : UInt32} {p : Bytes} {op : Bytes → Prog Message}
    (one : ∀ path, OneSection S P (op path))
    : OneSection S P (do
        if srv.ro then
          return status id statusPermissionDenied errReadOnly
        match resolve id p with
        | .error bad => return bad
        | .ok path => op path) := by
  split
  · exact .reply _
  split
  · exact .reply _
  · exact one _

include calls in
theorem opMkdir_section (m : SetstatRequest) : OneSection S P (opMkdir srv m) :=
  mutation_section fun _ => .exclusive (statusOf_calls (calls.call rfl))

include calls in
theorem opRemove_section (m : PathRequest) : OneSection S P (opRemove srv m) := by
  refine mutation_section fun _ => .exclusive (statusOf_calls ?_)
  split
  · exact calls.call rfl
  · exact calls.call rfl

include calls in
theorem opRename_section (m : RenameRequest) : OneSection S P (opRename srv m) := by
  refine mutation_section fun _ => ?_
  split
  · exact .reply _
  · exact .exclusive (statusOf_calls (calls.call rfl))

include calls in
theorem opSymlink_section (m : SymlinkRequest) : OneSection S P (opSymlink srv m) := by
  refine mutation_section fun _ => ?_
  split
  · exact .reply _
  · exact .exclusive (statusOf_calls (calls.call rfl))

theorem setAttribute_calls (id : UInt32) (announced : Bool) {call : Prog (Option DriverError)}
    (asks : call.Asks P fun _ => True)
    : (setAttribute id announced call).Asks P fun _ => True :=
  (setAttribute_asks id announced fun _ => asks).mono (fun _ holds => holds) fun _ _ => trivial

include calls in
theorem setSize_calls (id : UInt32) (path : Bytes) (a : Attributes)
    : (setSize srv id path a).Asks P fun _ => True :=
  (setSize_asks id path a fun _ _ fits => calls.truncate path a.size fits).mono
    (fun _ holds => holds) fun _ _ => trivial

include calls in
theorem opSetstat_section (id : UInt32) (path : Bytes) (a : Attributes)
    : OneSection S P (opSetstat srv id path a) := by
  unfold opSetstat
  split
  · exact .reply _
  refine .exclusive ((setSize_calls calls id path a).seq fun refusal => ?_)
  split
  · trivial
  unfold setMetadata
  split
  · trivial
  -- The three attributes are set one after the other, and the first failure is the reply.
  refine (setAttribute_calls id _ (calls.call rfl)).seq fun refusal => ?_
  split
  · trivial
  refine (setAttribute_calls id _ (calls.call rfl)).seq fun refusal => ?_
  split
  · trivial
  refine (setAttribute_calls id _ (calls.call rfl)).seq fun refusal => ?_
  split
  · trivial
  · trivial

include calls in
theorem opFsetstat_section (m : FsetstatRequest) : OneSection S P (opFsetstat srv t m) := by
  unfold opFsetstat
  split
  · exact .reply _
  · exact opSetstat_section calls _ _ _

include calls in
theorem closeFile_calls (h : OpenFile) : h.closeFile.Asks P fun _ => True :=
  closeFile_asks fun _ _ => calls.unplaced _ rfl

include calls in
theorem syncFile_calls (h : OpenFile) : h.syncFile.Asks P fun _ => True := by
  unfold OpenFile.syncFile
  split
  · exact calls.call rfl
  · trivial

include calls in
theorem registerHandle_calls (id : UInt32) (h : OpenFile)
    : (registerHandle t id h).Asks P fun _ => True := by
  refine (add_calls t h calls.randRead).seq fun added => ?_
  cases added with
  | error err => exact (closeFile_calls calls h).seq fun _ => trivial
  | ok stored => trivial

include calls in
theorem finishOpen_calls (id : UInt32) (path : Bytes) (write : Bool)
    : (finishOpen srv t id path write).Asks P fun _ => True := by
  unfold finishOpen
  split
  · exact registerHandle_calls calls id _
  refine .call (calls.unplaced _ rfl) fun answer => ?_
  rcases answer with err | none | file
  · trivial
  · trivial
  dsimp only
  split
  · exact registerHandle_calls calls id _
  split
  · exact registerHandle_calls calls id _
  refine .call (calls.unplaced _ rfl) fun closed => ?_
  cases closed with
  | none => exact registerHandle_calls calls id _
  | some err => trivial

include calls in
theorem openForWrite_calls (m : OpenRequest) (path : Bytes) (st : Option Stat)
    (statErr : Option DriverError)
    : (openForWrite srv t m path st statErr).Asks P fun _ => True := by
  unfold openForWrite
  split
  · trivial
  split
  · trivial
  split
  · refine .call (calls.unplaced _ rfl) fun written => ?_
    cases written with
    | none => exact finishOpen_calls calls _ _ _
    | some err => trivial
  · exact finishOpen_calls calls _ _ _

include calls in
theorem openStated_calls (m : OpenRequest) (path : Bytes) (st : Option Stat)
    (statErr : Option DriverError)
    : (openStated srv t m path st statErr).Asks P fun _ => True := by
  unfold openStated
  split
  · trivial
  split
  · exact openForWrite_calls calls m path st statErr
  split
  · trivial
  · exact finishOpen_calls calls _ _ _

include calls in
theorem opOpen_section (m : OpenRequest) : OneSection S P (opOpen srv t m) := by
  unfold opOpen
  split
  · exact .reply _
  split
  · exact .reply _
  split
  · exact .reply _
  refine .exclusive (.call (calls.unplaced _ rfl) fun answer => ?_)
  cases answer with
  | ok st => exact openStated_calls calls m _ st none
  | error err => exact openStated_calls calls m _ none (some err)

include calls in
theorem opClose_section (m : HandleRequest) : OneSection S P (opClose t m) := by
  unfold opClose
  split
  · exact .reply _
  refine .exclusive ((syncFile_calls calls _).seq fun syncErr => ?_)
  refine (closeFile_calls calls _).seq fun closeErr => ?_
  split <;> trivial

end Exclusive

/-- Every request that runs alone is a reply or one section, if it is no extension. -/
theorem dispatch_section {S P : Effect → Prop} (sharedCalls : SharedCalls S)
    (calls : ExclusiveCalls P) (srv : Server) (t : Handles) (typ : UInt8) (payload : Bytes)
    : OneSection S P (dispatch srv t typ payload)
      ∨ ∃ m, dispatch srv t typ payload = keeping t (opExtended srv t m) := by
  have handler := dispatch_handler srv t typ payload
  generalize dispatch srv t typ payload = program at handler
  cases handler with
  | malformed => exact .inl (.reply _)
  | opens => exact .inl (opOpen_section calls _)
  | closes => exact .inl (opClose_section calls _)
  | stats => exact .inl (opStat_section sharedCalls _).keeping
  | fstats => exact .inl (opFstat_section sharedCalls _).keeping
  | setstats => exact .inl (opSetstat_section calls _ _ _).keeping
  | fsetstats => exact .inl (opFsetstat_section calls _).keeping
  | opendirs => exact .inl (opOpendir_section sharedCalls _)
  | readdirs => exact .inl (opReaddir_section sharedCalls _)
  | removes => exact .inl (opRemove_section calls _).keeping
  | mkdirs => exact .inl (opMkdir_section calls _).keeping
  | realpaths => exact .inl (opRealpath_section _).keeping
  | renames => exact .inl (opRename_section calls _).keeping
  | readlinks => exact .inl (opReadlink_section sharedCalls _).keeping
  | symlinks => exact .inl (opSymlink_section calls _).keeping
  | extensions => exact .inr ⟨_, rfl⟩
  | unsupported => exact .inl (.reply _)

-----------------------------------------------------------------------------------------
-- Reads and writes
-----------------------------------------------------------------------------------------

section Jobs

variable {P : Effect → Prop}

/-- An offset that no file has is refused before the call. -/
theorem readAt_calls (id : UInt32) {file : File} {off : UInt64} {n : Nat}
    (asked : ¬maxInt64 < off → P (.driver (.fileReadAt file n off.toInt64)))
    : (readAt id file off n).Asks P fun _ => True := by
  unfold readAt
  split
  · trivial
  refine .call (asked ‹_›) fun read => ?_
  obtain ⟨got, err⟩ := read
  dsimp only
  split
  · trivial
  split
  · trivial
  split <;> trivial

theorem readWhole_calls (id : UInt32) {path : Bytes} (off : UInt64) (n : Nat)
    (asked : P (.driver (.readFile path)))
    : (readWhole id path off n).Asks P fun _ => True := by
  refine .call asked fun answer => ?_
  cases answer with
  | error err => trivial
  | ok data =>
      dsimp only
      split <;> trivial

theorem writeSplice_calls (calls : ExclusiveCalls P) (id : UInt32) (path : Bytes)
    (off : UInt64) (data : Bytes)
    : (writeSplice id path off data).Asks P fun _ => True := by
  refine .call (calls.unplaced _ rfl) fun answer => ?_
  cases answer with
  | error err => trivial
  | ok old =>
      dsimp only
      split
      · trivial
      · exact statusOf_calls (calls.call rfl)

end Jobs

end SftpServer.Sftp
