import SftpServer.Correctness.HandleTable

/-! What OPEN and OPENDIR leave in the handle table: what was there, or one more entry under
a token that was drawn for it. Two things are read off: which path an entry is stored with,
and that the other entries are kept.
-/

namespace SftpServer.Sftp

open SftpServer.Foundations
open SftpServer.Wire

/-- The tokens that are drawn are as `fresh` says. -/
def Draws (fresh : Bytes → Prop) : (effect : Effect) → effect.Answer → Prop
  | .randRead, .ok bytes => fresh (hexEncode bytes.toList)
  | _, _ => True

/-- The table as it was, with a status, or with one more entry of this path under a token that
was drawn.
-/
inductive Registers (fresh : Bytes → Prop) (path : Bytes) (t : Handles)
    : Message × Handles → Prop where
  | refused (id : UInt32) (code : Status) (msg : Bytes)
    : Registers fresh path t (status id code msg, t)
  | granted (id : UInt32) {tok : Bytes} {h : OpenFile} (drawn : fresh tok) (same : h.path = path)
    : Registers fresh path t (.handleReply { id, handle := tok }, AList.insert tok h t)

/-- As long as the tokens are as `fresh` says, the program ends with a result like that. -/
def Registering (fresh : Bytes → Prop) (path : Bytes) (t : Handles)
    (program : Prog (Message × Handles)) : Prop :=
  (Monitor.given (Draws fresh) fun _ => True).wp program
    (fun _ => Registers fresh path t) ()

section Handlers

variable {fresh : Bytes → Prop} {srv : Server} {t : Handles} {path : Bytes}

theorem registering_status (id : UInt32) (code : Status) (msg : Bytes)
    : Registering fresh path t (.ret (status id code msg, t)) :=
  .refused id code msg

theorem registering_call {effect : Effect} {rest : effect.Answer → Prog (Message × Handles)}
    (later : ∀ answer, Registering fresh path t (rest answer))
    : Registering fresh path t (.ask effect .ret >>= rest) :=
  Monitor.given_call trivial fun answer _ => later answer

theorem registering_locked {acquire release : LockOp} {body : Prog (Message × Handles)}
    (holds : Registering fresh path t body)
    : Registering fresh path t (withLock acquire release body) :=
  given_withLock (fun _ => trivial) holds

/-- A handle that is added, or a failed draw after which there is no more than `otherwise`. -/
theorem registering_add {id : UInt32} {h : OpenFile} (same : h.path = path)
    {otherwise : DriverError → Prog (Message × Handles)}
    (refused : ∀ err, Registering fresh path t (otherwise err))
    : Registering fresh path t (do
        match ← t.add h with
        | .error err => otherwise err
        | .ok (tok, later) => return (.handleReply { id, handle := tok }, later)) := by
  refine ⟨trivial, fun answer drawn => ?_⟩
  rcases answer with err | bytes
  · exact refused err
  · exact .granted id drawn same

theorem registerHandle_registers (id : UInt32) {h : OpenFile} (same : h.path = path)
    : Registering fresh path t (registerHandle t id h) := by
  refine registering_add same fun err => ?_
  rw [Registering, Monitor.wp_bind]
  refine Monitor.wp_mono (Monitor.given_of_asks h.closeFile.asks_true) fun _ _ _ => ?_
  exact registering_status _ _ _

theorem finishOpen_registers (id : UInt32) (write : Bool)
    : Registering fresh path t (finishOpen srv t id path write) := by
  unfold finishOpen
  split
  · exact registerHandle_registers id rfl
  refine registering_call fun answer => ?_
  rcases answer with err | none | file
  · exact registering_status _ _ _
  · exact registering_status _ _ _
  dsimp only
  split
  · exact registerHandle_registers id rfl
  split
  · exact registerHandle_registers id rfl
  refine registering_call fun closed => ?_
  cases closed with
  | none => exact registerHandle_registers id rfl
  | some err => exact registering_status _ _ _

theorem openStated_registers (m : OpenRequest) (st : Option Stat)
    (statErr : Option DriverError)
    : Registering fresh path t (openStated srv t m path st statErr) := by
  unfold openStated
  split
  · exact registering_status _ _ _
  split
  · unfold openForWrite
    split
    · exact registering_status _ _ _
    split
    · exact registering_status _ _ _
    split
    · refine registering_call fun written => ?_
      cases written with
      | none => exact finishOpen_registers m.id true
      | some err => exact registering_status _ _ _
    · exact finishOpen_registers m.id true
  split
  · exact registering_status _ _ _
  · exact finishOpen_registers m.id false

theorem opOpen_registers {m : OpenRequest} (resolved : resolve m.id m.path = .ok path)
    : Registering fresh path t (opOpen srv t m) := by
  unfold opOpen
  rw [resolved]
  dsimp only
  split
  · exact registering_status _ _ _
  split
  · exact registering_status _ _ _
  refine registering_locked (registering_call fun answer => ?_)
  cases answer with
  | ok st => exact openStated_registers m st none
  | error err => exact openStated_registers m none (some err)

theorem opOpendir_registers {m : PathRequest} (resolved : resolve m.id m.path = .ok path)
    : Registering fresh path t (opOpendir t m) := by
  unfold opOpendir
  rw [resolved]
  dsimp only
  split
  · exact registering_status _ _ _
  refine registering_locked (registering_call fun answer => ?_)
  rcases answer with err | none | st
  · exact registering_status _ _ _
  · exact registering_status _ _ _
  dsimp only
  split
  · exact registering_status _ _ _
  refine registering_call fun listed => ?_
  cases listed with
  | error err => exact registering_status _ _ _
  | ok entries => exact registering_add rfl fun _ => registering_status _ _ _

end Handlers

-----------------------------------------------------------------------------------------
-- Runs
-----------------------------------------------------------------------------------------

/-- The result stores a handle of this path, if it is one. -/
def StoresPath (path : Bytes) (result : Message × Handles) : Prop :=
  ∀ reply, result.1 = .handleReply reply
    → ∃ h, result.2.get reply.handle = some h ∧ h.path = path

theorem Registers.stores {fresh : Bytes → Prop} {path : Bytes} {t : Handles}
    {result : Message × Handles} (registers : Registers fresh path t result)
    : StoresPath path result := by
  intro reply is
  cases registers with
  | refused => cases is
  | @granted _ tok h drawn same =>
      cases is
      exact ⟨h, AList.lookup_insert t, same⟩

/-- The entries under other tokens than the one drawn are kept. -/
theorem Registers.keeps {tok path : Bytes} {t : Handles} {result : Message × Handles}
    (registers : Registers (· ≠ tok) path t result)
    : result.2.get tok = t.get tok := by
  cases registers with
  | refused => rfl
  | granted _ drawn => exact AList.lookup_insert_ne (Ne.symm drawn)

/-- Any token will do. -/
theorem draws_any (events : List Event)
    : ∀ event ∈ events, Draws (fun _ => True) event.question event.answer := by
  intro event _
  rcases event with ⟨effect, answer⟩
  cases effect with
  | randRead => cases answer <;> trivial
  | driver call => trivial
  | lock op => trivial

/-- OPEN stores the resolved path with the handle. -/
theorem opOpen_stores {srv : Server} {t : Handles} {m : OpenRequest} {path : Bytes}
    {calls : List Event} {result : Message × Handles} (resolved : resolve m.id m.path = .ok path)
    (run : (opOpen srv t m).Runs calls result)
    : StoresPath path result :=
  (Monitor.given_runs (opOpen_registers resolved) run (draws_any calls)).2.stores

/-- So does OPENDIR. -/
theorem opOpendir_stores {t : Handles} {m : PathRequest} {path : Bytes} {calls : List Event}
    {result : Message × Handles} (resolved : resolve m.id m.path = .ok path)
    (run : (opOpendir t m).Runs calls result)
    : StoresPath path result :=
  (Monitor.given_runs (opOpendir_registers resolved) run (draws_any calls)).2.stores

end SftpServer.Sftp
