import SftpServer.Concurrency.SharedObjects
import SftpServer.Correctness.Provenance
import SftpServer.Wire.RoundTrip

/-! What the flags of an OPEN allow later. A WRITE or a copy into a handle is refused unless
the handle was opened for writing, and `wantsWrite` takes CREAT, TRUNC and EXCL for that too.
-/

namespace SftpServer.Sftp

open SftpServer.Foundations
open SftpServer.Wire

/-- The request writes through a handle: a WRITE on it, or a copy-data into it. -/
def WritesThrough (tok : Bytes) (typ : UInt8) (payload : Bytes) : Prop :=
  (typ = fxpWrite ∧ ∃ m, decodeWrite payload = .ok m ∧ m.handle = tok)
  ∨ (typ = fxpExtended
    ∧ ∃ m copy,
        decodeExtended payload = .ok m
        ∧ m.name = copyDataExtension
        ∧ decodeCopyRequest m.data = .ok copy
        ∧ copy.target = tok)

/-- However the driver answers, the request is refused and asks for no mutation. -/
def Refused (srv : Server) (t : Handles) (typ : UInt8) (payload : Bytes) : Prop :=
  ∀ calls result, (answer srv t typ payload).Runs calls result
    → refuses result.1 = true
      ∧ ∀ event ∈ calls, ∀ call, event.question = .driver call → call.mutates = false

/-- Nothing can be written through a token: it is unknown, or its handle is not for writing. -/
def Handles.Unwritable (t : Handles) (tok : Bytes) : Prop :=
  ∀ h, t.get tok = some h → h.write = false

section Requests

variable {srv : Server} {t : Handles} {tok : Bytes}

/-- A request that asks for nothing and is refused. -/
theorem refused_of_silent {typ : UInt8} {payload : Bytes}
    (silent : (answer srv t typ payload).Asks (fun _ => False)
      fun result => refuses result.1 = true)
    : Refused srv t typ payload := by
  intro calls result run
  obtain ⟨asked, refusal⟩ := silent.of_runs run
  exact ⟨refusal, fun event member => (asked event member).elim⟩

theorem writeJob_refused (srv : Server) {m : WriteRequest}
    (unwritable : t.Unwritable m.handle)
    : ∃ reply, refuses reply = true ∧ writeJob srv t m = (none, some reply) := by
  simp only [writeJob]
  split
  · exact ⟨_, rfl, rfl⟩
  rename_i h found
  split
  · exact ⟨_, rfl, rfl⟩
  split
  · exact ⟨_, rfl, rfl⟩
  · rw [unwritable h found]
    exact ⟨_, rfl, rfl⟩

theorem copyData_refused (srv : Server) (id : UInt32) {data : Bytes} {copy : CopyRequest}
    (decodes : decodeCopyRequest data = .ok copy) (unwritable : t.Unwritable copy.target)
    : (copyData srv t id data).Asks (fun _ => False) fun reply => refuses reply = true := by
  have outcome := copyData_outcome srv t id data
  generalize copyData srv t id data = program at outcome
  cases outcome with
  | refused refusal => exact refuses_status refusal
  | served again served =>
      cases decodes.symm.trans again
      have forWriting := served.forWriting
      rw [unwritable _ served.target] at forWriting
      cases forWriting

/-- Through a handle that is not for writing nothing is written. -/
theorem refused_of_unwritable (srv : Server) (unwritable : t.Unwritable tok) {typ : UInt8}
    {payload : Bytes} (through : WritesThrough tok typ payload)
    : Refused srv t typ payload := by
  apply refused_of_silent
  rcases through with ⟨rfl, m, decodes, rfl⟩ | ⟨rfl, m, copy, decodes, name, request, rfl⟩
  · obtain ⟨reply, refusal, prepared⟩ := writeJob_refused srv unwritable
    rw [answer, prepare_write, decodes]
    dsimp only
    rw [prepared]
    exact refusal
  · have unprepared : prepare srv t fxpExtended payload = (none, none) := rfl
    have dispatched : dispatch srv t fxpExtended payload
        = decoded t (requestID payload) (decodeExtended payload)
            fun m => keeping t (opExtended srv t m) := rfl
    have noLimits : copyDataExtension ≠ limitsExtension := by decide
    rw [answer, unprepared]
    dsimp only
    rw [dispatched, decodes]
    simp only [decoded, opExtended, name, noLimits, if_false, if_true]
    rw [keeping, Interaction.asks_bind]
    exact copyData_refused srv m.id request unwritable

/-- Through a handle for writing something is: some answers of the driver make a WRITE of one
byte a mutation.
-/
theorem not_refused_of_writable {h : OpenFile} (writable : srv.ro = false)
    (length : tok.length ≤ defaultLimit) (found : t.get tok = some h)
    (isFile : h.dir = false) (write : h.write = true)
    : ∃ typ payload, WritesThrough tok typ payload ∧ ¬ Refused srv t typ payload := by
  let m : WriteRequest := { id := 0, handle := tok, offset := 0, data := [0] }
  obtain ⟨payload, decodes⟩ : ∃ payload, decodeWrite payload = .ok m :=
    ⟨_, (decodeWrite_delimits length (Nat.le_of_ble_eq_true rfl)).whole⟩
  refine ⟨fxpWrite, payload, .inl ⟨rfl, m, decodes, rfl⟩, ?_⟩
  intro refused
  have asks : (answer srv t fxpWrite payload).Asks
      (fun effect => ∀ call, effect = .driver call → call.mutates = false) fun _ => True :=
    .of_all_runs fun calls result run => (refused calls result run).2
  rw [answer, prepare_write, decodes] at asks
  have start : ¬ maxInt64 < (0 : UInt64) := by decide
  have offset : ¬ maxInt64 < m.offset := start
  have known : t.get m.handle = some h := found
  simp only [writeJob, known, isFile, writable, write, offset, Bool.not_true, if_false,
    Bool.false_eq_true] at asks
  cases target : h.writable with
  | some file =>
      rw [target] at asks
      -- The lock, and then the byte.
      have asked := (asks.2 ()).1 _ rfl
      cases asked
  | none =>
      rw [target] at asks
      -- The lock, the file as it is, which is taken to be empty, and then the new file.
      have rewritten := (asks.2 ()).2 (.ok [])
      have asked := rewritten.1 _ rfl
      cases asked

end Requests

/-- The flags that ask for a mutation, without those that ask to write. -/
theorem wantsWrite_iff {pflags : UInt32} (plain : pflags &&& (fxfWrite ||| fxfAppend) = 0)
    : wantsWrite pflags = true ↔ pflags &&& (fxfCreat ||| fxfTrunc ||| fxfExcl) ≠ 0 := by
  have masks : fxfWrite ||| fxfAppend ||| fxfCreat ||| fxfTrunc ||| fxfExcl
      = (fxfWrite ||| fxfAppend) ||| (fxfCreat ||| fxfTrunc ||| fxfExcl) := by decide
  have split : pflags &&& ((fxfWrite ||| fxfAppend) ||| (fxfCreat ||| fxfTrunc ||| fxfExcl))
      = (pflags &&& (fxfWrite ||| fxfAppend))
        ||| (pflags &&& (fxfCreat ||| fxfTrunc ||| fxfExcl)) := by
    apply UInt32.toBitVec_inj.mp
    ext i bound
    simp [Bool.and_or_distrib_left]
  rw [wantsWrite, masks, split, plain, UInt32.zero_or, bne_iff_ne]

/-- In every state of a session on a writable export, for every handle that an OPEN without
WRITE and APPEND was last answered with: all WRITEs on it and copies into it are refused
without a mutation exactly if it is closed, or the OPEN had none of CREAT, TRUNC and EXCL.
-/
theorem write_capability_iff {srv : Server} (writable : srv.ro = false) {s : Session}
    {trace : List Observation} (run : Session.Run srv Session.initial trace s) {tok : Bytes}
    {m : OpenRequest} (granted : grantedBy trace tok = some m)
    (plain : m.pflags &&& (fxfWrite ||| fxfAppend) = 0)
    : (∀ typ payload, WritesThrough tok typ payload → Refused srv s.handles typ payload)
      ↔ s.handles.get tok = none
        ∨ m.pflags &&& (fxfCreat ||| fxfTrunc ||| fxfExcl) = 0 := by
  -- What is known of the handle, if it is open: it was made by this OPEN.
  have made {h : OpenFile} (found : s.handles.get tok = some h)
      : tok.length ≤ defaultLimit ∧ h.dir = false ∧ h.write = wantsWrite m.pflags := by
    obtain ⟨length, ⟨_, ungranted⟩ | ⟨m', same, made⟩⟩ := run.provenance.table tok h found
    · rw [granted] at ungranted
      cases ungranted
    · obtain rfl := Option.some.inj (granted.symm.trans same)
      exact ⟨by rw [length]; decide, made.isFile, made.write⟩
  constructor
  · intro all
    by_contra open_for_write
    rw [not_or] at open_for_write
    obtain ⟨h, found⟩ := Option.ne_none_iff_exists'.mp open_for_write.1
    obtain ⟨length, isFile, mode⟩ := made found
    rw [(wantsWrite_iff plain).mpr open_for_write.2] at mode
    obtain ⟨typ, payload, through, unrefused⟩ :=
      not_refused_of_writable writable length found isFile mode
    exact unrefused (all typ payload through)
  · intro closed typ payload through
    refine refused_of_unwritable srv (fun h found => ?_) through
    rcases closed with gone | few
    · rw [gone] at found
      cases found
    · rw [(made found).2.2]
      by_contra mode
      exact (wantsWrite_iff plain).mp (by simpa using mode) few

-----------------------------------------------------------------------------------------
-- A file opened to read or create it
-----------------------------------------------------------------------------------------

/-- OPEN of `/a` with these flags. -/
def flaggedOpen (pflags : UInt8) : OpenRequest where
  id := 1
  path := [0x2f, 0x61]
  pflags := pflags.toUInt32
  attrs := {}

def openFlagged (pflags : UInt8) : Bytes :=
  [0, 0, 0, 1, 0, 0, 0, 2, 0x2f, 0x61, 0, 0, 0, pflags, 0, 0, 0, 0]

/-- A client opens `/a` with READ and CREAT, 9, and its WRITE through that handle is
performed.
-/
theorem created_for_reading_is_written
    : ∃ trace s,
        Session.Run sharedServer Session.initial trace s
        ∧ grantedBy trace (sharedHandle 1) = some (flaggedOpen 9)
        ∧ (flaggedOpen 9).pflags &&& (fxfWrite ||| fxfAppend) = 0
        ∧ WritesThrough (sharedHandle 1) fxpWrite (writeShared 1)
        ∧ ∃ calls result,
            (answer sharedServer s.handles fxpWrite (writeShared 1)).Runs calls result
            ∧ driverCalls calls = [.fileWriteAt { id := 0, isWritable := true } [7] 0]
            ∧ result.1 = status 1 statusOK [] := by
  have opened := (Session.Run.negotiating sharedServer).trans
    (.dispatching fxpOpen (openFlagged 9) rfl rfl rfl
      (Interaction.interpret_runs counting 0 _))
  exact ⟨_, _, opened, rfl, rfl, .inl ⟨rfl, _, rfl, rfl⟩, _, _,
    Interaction.interpret_runs counting 2 _, rfl, rfl⟩

theorem Session.Run.openingToRead
    : ∃ trace s,
        Session.Run sharedServer Session.initial trace s
        ∧ grantedBy trace (sharedHandle 1) = some (flaggedOpen 1)
        ∧ s.handles.get (sharedHandle 1) ≠ none := by
  have opened := (Session.Run.negotiating sharedServer).trans
    (.dispatching fxpOpen (openFlagged 1) rfl rfl rfl
      (Interaction.interpret_runs counting 0 _))
  exact ⟨_, _, opened, rfl, nofun⟩

/-- Opened with READ alone, a WRITE through the handle is refused. -/
theorem write_capability_opened_to_read
    : ∃ trace s,
        Session.Run sharedServer Session.initial trace s
        ∧ grantedBy trace (sharedHandle 1) = some (flaggedOpen 1)
        ∧ s.handles.get (sharedHandle 1) ≠ none
        ∧ Refused sharedServer s.handles fxpWrite (writeShared 1) := by
  obtain ⟨trace, s, opened, granted, isOpen⟩ := Session.Run.openingToRead
  have refused := write_capability_iff rfl opened granted rfl
  exact ⟨trace, s, opened, granted, isOpen,
    refused.mpr (.inr rfl) fxpWrite (writeShared 1) (.inl ⟨rfl, _, rfl, rfl⟩)⟩

end SftpServer.Sftp
