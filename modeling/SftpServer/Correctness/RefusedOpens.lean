import SftpServer.Correctness.Storage

/-! What an OPEN that is refused leaves behind. A file is created or truncated before it is
opened and a token is drawn, and a failure there does not undo it.
-/

namespace SftpServer.Sftp

open SftpServer.Foundations
open SftpServer.Wire

section Finish

variable {State : Type} (store : FileStore State) (s : State) (srv : Server) (t : Handles)

/-- `OpenFile` returns this file for the path, at some time. -/
def FileStore.Opened (path : Bytes) (file : File) : Prop :=
  ∃ s, (store.serve s (.openFile path)).1 = .ok (some file)

/-- A token can be drawn. -/
def FileStore.Draws : Prop := ∃ drawn, (store.random s).1 = .ok drawn

/-- An OPEN for writing that has come to opening the file goes through: the driver opens it,
or closes it again if it cannot be written in place, and a token can be drawn.
-/
def FileStore.Completes (path : Bytes) : Prop :=
  if srv.opener then
    ∃ file, (store.serve s (.openFile path)).1 = .ok (some file)
      ∧ if file.isWritable then store.Draws (store.serve s (.openFile path)).2
        else
          (store.serve (store.serve s (.openFile path)).2 (.fileClose file)).1 = none
          ∧ store.Draws (store.serve (store.serve s (.openFile path)).2 (.fileClose file)).2
  else store.Draws s

/-- How an OPEN of a path for writing ends: with a handle, whose file is what `OpenFile`
returned, if it completes, and otherwise with the table it began with.
-/
inductive FileStore.Finishes (path : Bytes) (completes : Prop) : Message × Handles → Prop where
  | granted {id : UInt32} {tok : Bytes} {h : OpenFile} (done : completes)
    (write : h.write = true) (named : h.path = path)
    (opened : ∀ file, h.writable = some file → store.Opened path file)
    : Finishes path completes (.handleReply ⟨id, tok⟩, AList.insert tok h t)
  | refused {reply : Message} (undone : ¬completes) (noHandle : isHandle reply = false)
    : Finishes path completes (reply, t)

variable {store s srv t} {path : Bytes}

theorem FileStore.Finishes.isHandle_iff {completes : Prop} {result : Message × Handles}
    (finishes : store.Finishes t path completes result)
    : isHandle result.1 = true ↔ completes := by
  cases finishes with
  | granted done => exact iff_of_true rfl done
  | refused undone noHandle => exact iff_of_false (by simp [noHandle]) undone

theorem finishes_registerHandle (id : UInt32) {h : OpenFile} (write : h.write = true)
    (named : h.path = path) (opened : ∀ file, h.writable = some file → store.Opened path file)
    : store.Finishes t path (store.Draws s)
        (Interaction.exec store.respond s (registerHandle t id h)).1 := by
  simp only [registerHandle, Handles.add, randRead, Interaction.exec_bind, Interaction.exec_ask,
    Interaction.exec_ret, FileStore.respond]
  cases drawn : (store.random s).1 with
  | ok bytes => exact .granted ⟨bytes, drawn⟩ write named opened
  | error err =>
      simp only [Interaction.pure_eq, Interaction.exec_ret, Interaction.exec_bind]
      refine .refused ?_ rfl
      intro draws
      obtain ⟨bytes, drew⟩ := draws
      cases drawn.symm.trans drew

theorem finishes_finishOpen (id : UInt32) (path : Bytes)
    : store.Finishes t path (store.Completes s srv path)
        (Interaction.exec store.respond s (finishOpen srv t id path true)).1 := by
  unfold finishOpen FileStore.Completes
  cases opener : srv.opener with
  | false => exact finishes_registerHandle id rfl rfl nofun
  | true =>
      simp only [Bool.not_true, Bool.false_eq_true, if_false, if_true, Fsys.openFile, File.close,
        Interaction.exec_bind, Interaction.exec_ask, Interaction.exec_ret, FileStore.respond]
      rcases answered : (store.serve s (.openFile path)).1 with err | _ | file
      · exact .refused (by simp) rfl
      · exact .refused (by simp) rfl
      have once : store.Opened path file := ⟨s, answered⟩
      simp only [Except.ok.injEq, Option.some.injEq, exists_eq_left']
      split
      · refine finishes_registerHandle id rfl rfl ?_
        intro other same
        exact Option.some.inj same ▸ once
      -- A snapshot: it is closed again, and the handle goes without a file.
      simp only [Interaction.exec_bind, Interaction.exec_ask, Interaction.exec_ret,
        FileStore.respond]
      rcases (store.serve (store.serve s (.openFile path)).2 (.fileClose file)).1 with _ | err
      · simp only [true_and]
        exact finishes_registerHandle id rfl rfl nofun
      · exact .refused (by simp) rfl

/-- An OPEN for writing ends in one of the two ways, whatever it depends on. -/
theorem finishes_openStated {m : OpenRequest} (wants : wantsWrite m.pflags = true)
    (path : Bytes) (st : Option Stat) (statErr : Option DriverError)
    : ∃ completes, store.Finishes t path completes
        (Interaction.exec store.respond s (openStated srv t m path st statErr)).1 := by
  have refused (code : Status) (msg : Bytes)
      : ∃ completes, store.Finishes t path completes (status m.id code msg, t) :=
    ⟨False, .refused not_false rfl⟩
  simp only [openStated, wants, if_true, openForWrite]
  split
  · exact refused _ _
  split
  · exact refused _ _
  split
  · exact refused _ _
  split
  · simp only [Fsys.writeFile, Interaction.exec_bind, Interaction.exec_ask, Interaction.exec_ret]
    rcases (store.respond s (.driver (.writeFile path [] (permOr m.attrs 0o644)))).1 with _ | err
    · exact ⟨_, finishes_finishOpen m.id path⟩
    · exact refused _ _
  · exact ⟨_, finishes_finishOpen m.id path⟩

/-- An OPEN for writing that is answered with a handle. -/
theorem FileStore.granted_opOpen {m : OpenRequest} (wants : wantsWrite m.pflags = true)
    {id : UInt32} {tok : Bytes} {later : Handles} {after : State}
    (granted : Interaction.exec store.respond s (opOpen srv t m)
      = ((.handleReply ⟨id, tok⟩, later), after))
    : ∃ h, later.get tok = some h ∧ resolve m.id m.path = .ok h.path ∧ h.write = true
        ∧ ∀ file, h.writable = some file → store.Opened h.path file := by
  have result := congrArg Prod.fst granted
  cases resolved : resolve m.id m.path with
  | error bad =>
      have refusal := refusal_of_resolve resolved
      simp [opOpen, resolved, refusal, status] at result
  | ok path =>
      simp only [opOpen, resolved] at result
      split at result
      · simp [status] at result
      split at result
      · simp [status] at result
      obtain ⟨completes, finishes⟩ : ∃ completes, store.Finishes t path completes
          (.handleReply ⟨id, tok⟩, later) := by
        rw [← result]
        simp only [locked, store.exec_withLock, Fsys.stat, Interaction.exec_bind,
          Interaction.exec_ask, Interaction.exec_ret, FileStore.respond]
        cases (store.serve s (.stat path)).1 with
        | error err => exact finishes_openStated wants path none (some err)
        | ok st => exact finishes_openStated wants path st none
      cases finishes with
      | granted _ write named opened =>
          subst named
          exact ⟨_, AList.lookup_insert .., rfl, write, opened⟩
      | refused _ noHandle => cases noHandle

end Finish

section Refusals

variable {State : Type} {srv : Server} {t : Handles} {m : OpenRequest} {path : Bytes} {s : State}

/-- A run that does not end with a handle, and in which no `WriteFile` failed, leaves the
files and the table as they were.
-/
def FileStore.Keeps (store : FileStore State) (t : Handles) (s : State)
    (run : List Event × (Message × Handles) × State) : Prop :=
  isHandle run.2.1.1 = false
  → (∀ path data perm err, ⟨.driver (.writeFile path data perm), some err⟩ ∉ run.1)
  → store.contents run.2.2 = store.contents s ∧ run.2.1.2 = t

/-- An OPEN that is refused changes nothing, unless its `WriteFile` failed. -/
def FileStore.RefusalKeeps (store : FileStore State) (srv : Server) (t : Handles)
    (m : OpenRequest) (s : State) : Prop :=
  store.Keeps t s (Interaction.interpret store.respond s (opOpen srv t m))

/-- A program that mutates nothing, after steps that kept the files. -/
theorem FileStore.keeps_of_harmless (store : FileStore State) {program : Prog (Message × Handles)}
    (harmless : program.Asks Harmless (Ungranted t)) {later : State}
    (same : store.contents later = store.contents s) (early : List Event)
    : store.Keeps t s (early ++ (Interaction.interpret store.respond later program).1,
        (Interaction.interpret store.respond later program).2) := by
  intro noHandle _
  refine ⟨(harmless.exec_keeps store.respond_keeps later).trans same, ?_⟩
  exact (harmless.of_runs (Interaction.interpret_runs _ _ _)).2 noHandle

/-- An OPEN that is refused before it asks for anything. -/
theorem FileStore.refusalKeeps_of_silent (store : FileStore State) {reply : Message}
    (silent : opOpen srv t m = .ret (reply, t))
    : store.RefusalKeeps srv t m s := by
  rw [RefusalKeeps, silent]
  exact fun _ _ => ⟨rfl, rfl⟩

/-- What follows a `WriteFile` that has emptied the file. -/
theorem FileStore.keeps_iff_of_emptied (store : FileStore State)
    {program : Prog (Message × Handles)} (harmless : program.Asks Harmless (Ungranted t))
    {later : State}
    (emptied : store.contents later = Function.update (store.contents s) path (some []))
    {early : List Event}
    (quiet : ∀ path data perm err, ⟨.driver (.writeFile path data perm), some err⟩ ∉ early)
    : store.Keeps t s (early ++ (Interaction.interpret store.respond later program).1,
          (Interaction.interpret store.respond later program).2)
      ↔ store.contents s path = some []
        ∨ isHandle (Interaction.exec store.respond later program).1.1 = true := by
  have contents := (harmless.exec_keeps store.respond_keeps later).trans emptied
  obtain ⟨asked, kept⟩ := harmless.of_runs (Interaction.interpret_runs store.respond later _)
  constructor
  · intro keeps
    by_contra loses
    rw [not_or, Bool.not_eq_true] at loses
    obtain ⟨nonempty, noHandle⟩ := loses
    refine nonempty ?_
    have unchanged := (keeps noHandle ?_).1
    · calc store.contents s path
          _ = Function.update (store.contents s) path (some []) path := by
              rw [← contents]
              exact (congrFun unchanged path).symm
          _ = some [] := Function.update_self ..
    · intro other data perm err member
      rcases List.mem_append.mp member with before | after
      · exact quiet other data perm err before
      · cases asked _ after _ rfl
  · intro harmlessly noHandle _
    rcases harmlessly with empty | granted
    · refine ⟨contents.trans ?_, kept noHandle⟩
      rw [← empty, Function.update_eq_self]
    · exact absurd (granted.symm.trans noHandle) (by simp)

section Stated

variable (resolved : resolve m.id m.path = .ok path)
  (permitted : (wantsWrite m.pflags && srv.ro) = false) (room : t.full = false)

include resolved permitted room

/-- One that writes nothing before it opens the file. -/
theorem FileStore.refusalKeeps_of_idle (store : FileStore State)
    (idle : ¬WritesFirst m (statFound (store.serve s (.stat path)).1))
    : store.RefusalKeeps srv t m s := by
  rw [RefusalKeeps, interpret_opOpen store s resolved permitted room]
  exact store.keeps_of_harmless (openAnswered_harmless srv t path idle)
    (store.serve_keeps s (.stat path) rfl) [_, _]

/-- One that writes the file first: the `WriteFile` has failed, has changed nothing, or is
followed by a handle.
-/
theorem PathStore.refusalKeeps_writing_iff (store : PathStore State)
    (writes : WritesFirst m (statFound (store.serve s (.stat path)).1))
    : store.RefusalKeeps srv t m s
      ↔ ((store.serve (store.serve s (.stat path)).2
            (.writeFile path [] (permOr m.attrs 0o644))).1 = none
          → store.contents s path = some []
            ∨ store.Completes (store.serve (store.serve s (.stat path)).2
                (.writeFile path [] (permOr m.attrs 0o644))).2 srv path) := by
  have stated := store.serve_keeps s (.stat path) rfl
  have wrote := store.writes (store.serve s (.stat path)).2 path [] (permOr m.attrs 0o644)
  rw [FileStore.RefusalKeeps, interpret_opOpen store.toFileStore s resolved permitted room,
    openAnswered_writes srv t path writes]
  simp only [Interaction.interpret, FileStore.respond]
  generalize store.serve (store.serve s (.stat path)).2
    (.writeFile path [] (permOr m.attrs 0o644)) = written at wrote ⊢
  obtain ⟨failure, later⟩ := written
  cases failure with
  | some err =>
      refine iff_of_true ?_ (by simp)
      intro _ succeeded
      exact absurd (.tail _ (.tail _ (.head _))) (succeeded path [] (permOr m.attrs 0o644) err)
  | none =>
      have harmless : (finishOpen srv t m.id path true
          >>= fun result => .ask (.lock .unlock) fun _ => .ret result).Asks Harmless
            (Ungranted t) := by
        rw [Interaction.asks_bind]
        exact (finishOpen_harmless srv t m.id path true).mono (fun _ holds => holds)
          fun _ kept => ⟨harmless_lock _, fun _ => kept⟩
      have granted := (@finishes_finishOpen _ store.toFileStore later srv t m.id path).isHandle_iff
      rw [stated] at wrote
      -- Up to here the lock, the `Stat` and the `WriteFile` were answered.
      have quiet : ∀ other data perm err,
          (⟨.driver (.writeFile other data perm), some err⟩ : Event) ∉ [
            ⟨.lock .lock, ()⟩, ⟨.driver (.stat path), (store.serve s (.stat path)).1⟩,
            ⟨.driver (.writeFile path [] (permOr m.attrs 0o644)), none⟩] := by
        simp
      have keeps := store.keeps_iff_of_emptied harmless (wrote rfl) quiet
      simp only [Interaction.exec_bind, Interaction.exec_ask, Interaction.exec_ret, granted]
        at keeps
      exact ⟨fun kept _ => keeps.mp kept, fun safe => keeps.mpr (safe rfl)⟩

end Stated

/-- A refused OPEN changes nothing exactly if, should it create or truncate a file that is
not empty already, what follows goes through.
-/
theorem refused_open_keeps_iff (store : PathStore State)
    : store.RefusalKeeps srv t m s
      ↔ ∀ path, resolve m.id m.path = .ok path
          → (wantsWrite m.pflags && srv.ro) = false → t.full = false
          → WritesFirst m (statFound (store.serve s (.stat path)).1)
          → (store.serve (store.serve s (.stat path)).2
              (.writeFile path [] (permOr m.attrs 0o644))).1 = none
          → store.contents s path = some []
            ∨ store.Completes (store.serve (store.serve s (.stat path)).2
                (.writeFile path [] (permOr m.attrs 0o644))).2 srv path := by
  constructor
  · intro keeps path resolved permitted room writes
    exact (store.refusalKeeps_writing_iff resolved permitted room writes).mp keeps
  · intro safe
    cases resolved : resolve m.id m.path with
    | error bad =>
        have silent : opOpen srv t m = .ret (bad, t) := by
          simp only [opOpen, resolved, Interaction.pure_eq]
        exact store.refusalKeeps_of_silent silent
    | ok path =>
        by_cases refused : (wantsWrite m.pflags && srv.ro) = true ∨ t.full = true
        · obtain ⟨reply, silent⟩ := opOpen_silent resolved refused
          exact store.refusalKeeps_of_silent silent
        rw [not_or, Bool.not_eq_true, Bool.not_eq_true] at refused
        obtain ⟨permitted, room⟩ := refused
        by_cases writes : WritesFirst m (statFound (store.serve s (.stat path)).1)
        · exact (store.refusalKeeps_writing_iff resolved permitted room writes).mpr
            (safe path resolved permitted room writes)
        · exact store.refusalKeeps_of_idle resolved permitted room writes

end Refusals

/-- A driver that finds every file and opens none. -/
def unopening : (call : DriverCall) → call.Answer
  | .openFile _ => .error { message := text "input/output error" }
  | call => call.success

def unopeningStore : OpenStore Contents :=
  memoryStore unopening (fun _ => []) (by
    intro path file opened
    cases opened)

/-- OPEN of `/a` for writing, with TRUNC: the driver fails to open it, and the byte it held
is lost.
-/
theorem refused_open_empties_file
    : let run := Interaction.interpret unopeningStore.respond oneFile
        (opOpen { plainServer with opener := true } ∅ (openExisting 0x12))
      run.1 = [
          ⟨.lock .lock, ()⟩, ⟨.driver (.stat [0x2f, 0x61]), unopening (.stat [0x2f, 0x61])⟩,
          ⟨.driver (.writeFile [0x2f, 0x61] [] 0o644), none⟩,
          ⟨.driver (.openFile [0x2f, 0x61]), unopening (.openFile [0x2f, 0x61])⟩,
          ⟨.lock .unlock, ()⟩]
      ∧ run.2.1.1 = status 1 statusFailure (text "input/output error")
      ∧ unopeningStore.contents oneFile [0x2f, 0x61] = some [7]
      ∧ unopeningStore.contents run.2.2 [0x2f, 0x61] = some [] :=
  ⟨rfl, rfl, rfl, rfl⟩

end SftpServer.Sftp
