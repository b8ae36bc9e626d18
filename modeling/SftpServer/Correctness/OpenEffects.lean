import SftpServer.Correctness.HandleTable

/-! What OPEN does to a file that is there. Whether it is there is inferred from `Stat`: a
`Stat` that fails, or answers `(nil, nil)`, counts as absence, and CREAT then writes the file
anew.
-/

namespace SftpServer.Sftp

open SftpServer.Foundations
open SftpServer.Wire

/-- A driver and a random source, whatever they answer, with the contents of the files: a
call that does not mutate leaves them alone.
-/
structure FileStore (State : Type) where
  serve : State → (call : DriverCall) → call.Answer × State
  random : State → Except DriverError (Vector UInt8 handleBytes) × State
  contents : State → Bytes → Option Bytes
  serve_keeps : ∀ s call, call.mutates = false → contents (serve s call).2 = contents s
  random_keeps : ∀ s, contents (random s).2 = contents s

/-- The surroundings of a request that is served by the driver. -/
def FileStore.respond {State : Type} (store : FileStore State) (s : State)
    : (effect : Effect) → effect.Answer × State
  | .driver call => store.serve s call
  | .lock _ => ((), s)
  | .randRead => store.random s

/-- An effect that is no mutation. -/
def Harmless (effect : Effect) : Prop :=
  ∀ call, effect = .driver call → call.mutates = false

theorem FileStore.respond_keeps {State : Type} (store : FileStore State) (s : State)
    (effect : Effect) (harmless : Harmless effect)
    : store.contents (store.respond s effect).2 = store.contents s := by
  cases effect with
  | driver call => exact store.serve_keeps s call (harmless call rfl)
  | lock op => rfl
  | randRead => exact store.random_keeps s

theorem Harmless.of_call {call : DriverCall} (steady : call.mutates = false)
    : Harmless (.driver call) := by
  intro other same
  cases same
  exact steady

theorem harmless_lock (op : LockOp) : Harmless (.lock op) := nofun

theorem harmless_randRead : Harmless .randRead := nofun

/-- A request that is not answered with a handle leaves the table as it is. -/
def Ungranted (t : Handles) (result : Message × Handles) : Prop :=
  isHandle result.1 = false → result.2 = t

section Opening

variable (srv : Server) (t : Handles)

theorem registerHandle_harmless (id : UInt32) (h : OpenFile)
    : (registerHandle t id h).Asks Harmless (Ungranted t) := by
  unfold registerHandle
  rw [Interaction.asks_bind]
  refine (add_asks t h harmless_randRead).mono (fun _ holds => holds) ?_
  intro answer _
  rcases answer with err | stored
  · dsimp only
    rw [Interaction.asks_bind]
    exact (closeFile_asks fun _ _ => .of_call rfl).mono (fun _ holds => holds) fun _ _ _ => rfl
  · exact fun noHandle => nomatch noHandle

theorem finishOpen_harmless (id : UInt32) (path : Bytes) (write : Bool)
    : (finishOpen srv t id path write).Asks Harmless (Ungranted t) := by
  unfold finishOpen
  split
  · exact registerHandle_harmless t id _
  refine .call (.of_call rfl) fun answer => ?_
  rcases answer with err | none | file
  · exact fun _ => rfl
  · exact fun _ => rfl
  dsimp only
  split
  · exact registerHandle_harmless t id _
  split
  · exact registerHandle_harmless t id _
  refine .call (.of_call rfl) fun answer => ?_
  rcases answer with _ | err
  · exact registerHandle_harmless t id _
  · exact fun _ => rfl

/-- Whether an OPEN writes the file before it opens it, by its flags and what `Stat` found:
it creates a missing file, or truncates one that is there.
-/
def WritesFirst (m : OpenRequest) (st : Option Stat) : Prop :=
  st.any (fun st => st.mode &&& modeFmt == modeDir) = false
  ∧ wantsWrite m.pflags = true
  ∧ (st.isNone = true ∧ m.pflags &&& fxfCreat ≠ 0
    ∨ st.isSome = true ∧ m.pflags &&& fxfExcl = 0 ∧ m.pflags &&& fxfTrunc ≠ 0)

variable {m : OpenRequest}

/-- An OPEN that writes nothing first mutates nothing. -/
theorem openStated_harmless (path : Bytes) {st : Option Stat} (statErr : Option DriverError)
    (idle : ¬WritesFirst m st)
    : (openStated srv t m path st statErr).Asks Harmless (Ungranted t) := by
  unfold openStated
  split
  · exact fun _ => rfl
  rename_i isFile
  split
  swap
  · split
    · exact fun _ => rfl
    · exact finishOpen_harmless srv t m.id path false
  rename_i wants
  unfold openForWrite
  split
  · exact fun _ => rfl
  rename_i inclusive
  split
  · exact fun _ => rfl
  rename_i found
  split
  · rename_i writes
    refine absurd ⟨by simpa using isFile, wants, ?_⟩ idle
    cases st with
    | none => exact .inl ⟨rfl, fun noCreate => found ⟨rfl, noCreate⟩⟩
    | some st =>
        refine .inr ⟨rfl, ?_, writes.resolve_left (by simp)⟩
        by_contra exclusive
        exact inclusive ⟨rfl, exclusive⟩
  · exact finishOpen_harmless srv t m.id path true

/-- One that writes first asks for `WriteFile`, and goes on if that succeeds. -/
theorem openStated_writes (path : Bytes) {st : Option Stat} (statErr : Option DriverError)
    (writes : WritesFirst m st)
    : openStated srv t m path st statErr
      = .ask (.driver (.writeFile path [] (permOr m.attrs 0o644))) fun
        | some err => .ret (statusErr m.id (some err) statusFailure, t)
        | none => finishOpen srv t m.id path true := by
  obtain ⟨isFile, wants, reason⟩ := writes
  have inclusive : ¬(st.isSome = true ∧ m.pflags &&& fxfExcl ≠ 0) := by
    rcases reason with absent | present
    · simp [Option.isNone_iff_eq_none.mp absent.1]
    · exact fun exclusive => exclusive.2 present.2.1
  have found : ¬(st.isNone = true ∧ m.pflags &&& fxfCreat = 0) := by
    rcases reason with absent | present
    · exact fun missing => absent.2 missing.2
    · obtain ⟨st, rfl⟩ := Option.isSome_iff_exists.mp present.1
      simp
  have due : st.isNone = true ∨ m.pflags &&& fxfTrunc ≠ 0 :=
    reason.imp (fun absent => absent.1) (fun present => present.2.2)
  simp only [openStated, isFile, wants, openForWrite, if_neg inclusive, if_neg found, if_pos due,
    Bool.false_eq_true, if_false, if_true]
  rw [Fsys.writeFile, Interaction.ask_bind]
  congr 1
  funext answer
  cases answer with
  | none => rfl
  | some err => rfl

end Opening

/-- An OPEN without TRUNC, or with EXCL, that finds its file or creates none. -/
theorem not_writesFirst {m : OpenRequest} {st : Option Stat}
    (kept : m.pflags &&& fxfTrunc = 0 ∨ m.pflags &&& fxfExcl ≠ 0)
    (known : m.pflags &&& fxfCreat = 0 ∨ st.isSome = true)
    : ¬WritesFirst m st := by
  intro writes
  rcases writes.2.2 with ⟨absent, create⟩ | ⟨_, inclusive, truncates⟩
  · rcases known with noCreate | present
    · exact create noCreate
    · simp [Option.isNone_iff_eq_none.mp absent] at present
  · rcases kept with noTrunc | exclusive
    · exact truncates noTrunc
    · exact exclusive inclusive

/-- An OPEN with CREAT that does not find its file. -/
theorem writesFirst_of_create {m : OpenRequest} (create : m.pflags &&& fxfCreat ≠ 0)
    : WritesFirst m none := by
  refine ⟨rfl, ?_, .inl ⟨rfl, create⟩⟩
  by_contra reading
  exact create (noCreate_of_not_wantsWrite (by simpa using reading))

section Contents

variable {State : Type} (store : FileStore State) {srv : Server} {t : Handles}
  {m : OpenRequest} {path : Bytes} (s : State)

/-- What is left of an OPEN once `Stat` has answered. -/
def openAnswered (srv : Server) (t : Handles) (m : OpenRequest) (path : Bytes)
    (answer : Except DriverError (Option Stat)) : Prog (Message × Handles) :=
  (match answer with
    | .ok st => openStated srv t m path st none
    | .error err => openStated srv t m path none (some err))
  >>= fun result => .ask (.lock .unlock) fun _ => .ret result

/-- What `Stat` found: an error counts as absence. -/
def statFound : Except DriverError (Option Stat) → Option Stat
  | .ok st => st
  | .error _ => none

theorem statFound_isSome {answer : Except DriverError (Option Stat)}
    : (statFound answer).isSome = true ↔ ∃ st, answer = .ok (some st) := by
  rcases answer with err | _ | st
  · simp [statFound]
  · simp [statFound]
  · simp [statFound]

theorem openAnswered_eq (srv : Server) (t : Handles) (m : OpenRequest) (path : Bytes)
    (answer : Except DriverError (Option Stat))
    : ∃ statErr, openAnswered srv t m path answer
        = openStated srv t m path (statFound answer) statErr
          >>= fun result => .ask (.lock .unlock) fun _ => .ret result := by
  cases answer with
  | error err => exact ⟨some err, rfl⟩
  | ok st => exact ⟨none, rfl⟩

theorem openAnswered_harmless (srv : Server) (t : Handles) (path : Bytes)
    {answer : Except DriverError (Option Stat)} (idle : ¬WritesFirst m (statFound answer))
    : (openAnswered srv t m path answer).Asks Harmless (Ungranted t) := by
  obtain ⟨statErr, same⟩ := openAnswered_eq srv t m path answer
  rw [same, Interaction.asks_bind]
  exact (openStated_harmless srv t path statErr idle).mono (fun _ holds => holds)
    fun _ kept => ⟨harmless_lock _, fun _ => kept⟩

theorem openAnswered_writes (srv : Server) (t : Handles) (path : Bytes)
    {answer : Except DriverError (Option Stat)} (writes : WritesFirst m (statFound answer))
    : openAnswered srv t m path answer
      = .ask (.driver (.writeFile path [] (permOr m.attrs 0o644))) fun failure =>
          (match failure with
            | some err => .ret (statusErr m.id (some err) statusFailure, t)
            | none => finishOpen srv t m.id path true)
          >>= fun result => .ask (.lock .unlock) fun _ => .ret result := by
  obtain ⟨statErr, same⟩ := openAnswered_eq srv t m path answer
  rw [same, openStated_writes srv t path statErr writes, Interaction.ask_bind]

/-- An OPEN into a read-only export or a full table asks for nothing. -/
theorem opOpen_silent (resolved : resolve m.id m.path = .ok path)
    (refused : (wantsWrite m.pflags && srv.ro) = true ∨ t.full = true)
    : ∃ reply, opOpen srv t m = .ret (reply, t) := by
  simp only [opOpen, resolved]
  split
  · exact ⟨_, rfl⟩
  · rename_i permitted
    rw [if_pos (refused.resolve_left permitted)]
    exact ⟨_, rfl⟩

/-- An OPEN that is not refused at once asks for `Stat` and goes on with its answer. -/
theorem interpret_opOpen (resolved : resolve m.id m.path = .ok path)
    (permitted : (wantsWrite m.pflags && srv.ro) = false) (room : t.full = false)
    : Interaction.interpret store.respond s (opOpen srv t m)
      = (⟨.lock .lock, ()⟩ :: ⟨.driver (.stat path), (store.serve s (.stat path)).1⟩
          :: (Interaction.interpret store.respond (store.serve s (.stat path)).2
            (openAnswered srv t m path (store.serve s (.stat path)).1)).1,
        (Interaction.interpret store.respond (store.serve s (.stat path)).2
          (openAnswered srv t m path (store.serve s (.stat path)).1)).2) := by
  have opens : opOpen srv t m = .ask (.lock .lock) fun _ =>
      .ask (.driver (.stat path)) (openAnswered srv t m path) := by
    simp only [opOpen, resolved, permitted, room, Bool.false_eq_true, if_false]
    rfl
  rw [opens]
  rfl

/-- An OPEN without TRUNC, or with EXCL, of a file that is there: the file is not written and
keeps its contents exactly if the export is read-only, the table is full, CREAT is not set, or
`Stat` finds the file.
-/
theorem open_keeps_existing_iff (resolved : resolve m.id m.path = .ok path)
    (kept : m.pflags &&& fxfTrunc = 0 ∨ m.pflags &&& fxfExcl ≠ 0) {data : Bytes}
    (present : store.contents s path = some data)
    : (∀ event ∈ (Interaction.interpret store.respond s (opOpen srv t m)).1,
          ∀ written perm, event.question ≠ .driver (.writeFile path written perm))
        ∧ store.contents (Interaction.interpret store.respond s (opOpen srv t m)).2.2 path
          = some data
      ↔ srv.ro = true ∨ t.full = true ∨ m.pflags &&& fxfCreat = 0
        ∨ ∃ st, (store.serve s (.stat path)).1 = .ok (some st) := by
  constructor
  · intro untouched
    by_contra destroys
    simp only [not_or, Bool.not_eq_true] at destroys
    obtain ⟨writable, room, create, unknown⟩ := destroys
    have missing : statFound (store.serve s (.stat path)).1 = none := by
      rw [← statFound_isSome] at unknown
      simpa using unknown
    have writes : WritesFirst m (statFound (store.serve s (.stat path)).1) :=
      missing ▸ writesFirst_of_create create
    rw [interpret_opOpen store s resolved (by simp [writable]) room,
      openAnswered_writes srv t path writes] at untouched
    -- The exchange after the lock and `Stat` is the `WriteFile`.
    have third := untouched.1 ⟨.driver (.writeFile path [] (permOr m.attrs 0o644)), _⟩
      (.tail _ (.tail _ (.head _))) [] (permOr m.attrs 0o644)
    exact third rfl
  · intro safe
    by_cases refused : (wantsWrite m.pflags && srv.ro) = true ∨ t.full = true
    · obtain ⟨reply, silent⟩ := opOpen_silent resolved refused
      rw [silent]
      exact ⟨fun _ member => (List.not_mem_nil member).elim, present⟩
    simp only [not_or, Bool.not_eq_true] at refused
    obtain ⟨permitted, room⟩ := refused
    -- A read-only export comes here only with nothing to create.
    have known : m.pflags &&& fxfCreat = 0
        ∨ ∃ st, (store.serve s (.stat path)).1 = .ok (some st) := by
      rcases safe with readOnly | full | known
      · exact .inl (noCreate_of_not_wantsWrite (by simpa [readOnly] using permitted))
      · rw [room] at full
        cases full
      · exact known
    have asks := openAnswered_harmless srv t path
      (not_writesFirst kept (known.imp_right statFound_isSome.mpr))
    rw [interpret_opOpen store s resolved permitted room]
    refine ⟨?_, ?_⟩
    · intro event member written perm
      rcases List.mem_cons.mp member with rfl | member
      · nofun
      rcases List.mem_cons.mp member with rfl | member
      · nofun
      · intro writes
        have harmless := (asks.of_runs (Interaction.interpret_runs _ _ _)).1 event member
        cases harmless _ writes
    · have kept := asks.exec_keeps store.respond_keeps (store.serve s (.stat path)).2
      have still := store.serve_keeps s (.stat path) rfl
      exact (congrFun (kept.trans still) path).trans present

end Contents

/-- A driver that stores files and answers every `Stat` in the same way. -/
def statStore (st : Except DriverError (Option Stat)) : FileStore (Bytes → Option Bytes) where
  serve s
    | .stat _ => (st, s)
    | .writeFile path data _ => (none, fun other => if other = path then some data else s other)
    | call => (call.success, s)
  random s := (.ok (Vector.replicate handleBytes 0), s)
  contents s := s
  serve_keeps s call steady := by
    cases call with
    | writeFile => cases steady
    | _ => rfl
  random_keeps _ := rfl

/-- `/a` is a file of one byte. -/
def oneFile (path : Bytes) : Option Bytes := if path = [0x2f, 0x61] then some [7] else none

/-- A writable export of a driver with the required calls only. -/
def plainServer : Server where
  opener := false
  symlinker := false
  truncater := false
  metadataSetter := false
  ro := false

/-- The token of a handle from a source of zeros. -/
def zeroToken : Bytes := List.replicate 32 0x30

/-- OPEN of `/a` with these flags. -/
def openExisting (pflags : UInt32) : OpenRequest where
  id := 1
  path := [0x2f, 0x61]
  pflags
  attrs := {}

/-- WRITE and CREAT, without TRUNC and then with EXCL, of a file that is there: `Stat` is
denied, or answers nothing, and the file is left empty.
-/
theorem unstated_file_is_emptied
    : let denied : Except DriverError (Option Stat) :=
        .error { isPermission := true, message := text "permission denied" }
      oneFile [0x2f, 0x61] = some [7]
      ∧ (openExisting 0x0a).pflags &&& fxfTrunc = 0
      ∧ (openExisting 0x2a).pflags &&& fxfExcl ≠ 0
      ∧ (Interaction.interpret (statStore denied).respond oneFile
          (opOpen plainServer ∅ (openExisting 0x0a))).2.2 [0x2f, 0x61] = some []
      ∧ (Interaction.interpret (statStore (.ok none)).respond oneFile
          (opOpen plainServer ∅ (openExisting 0x2a))).2.2 [0x2f, 0x61] = some [] :=
  ⟨rfl, rfl, by decide, rfl, rfl⟩

/-- With a `Stat` that finds the file it keeps its byte. -/
theorem open_keeps_existing_stated
    : (Interaction.interpret (statStore (.ok (some { mode := modeReg, size := 1 }))).respond
        oneFile (opOpen plainServer ∅ (openExisting 0x0a))).2.2 [0x2f, 0x61] = some [7] := by
  have keeps := @open_keeps_existing_iff _
    (statStore (.ok (some { mode := modeReg, size := 1 }))) plainServer ∅ (openExisting 0x0a)
    [0x2f, 0x61] oneFile rfl (.inl rfl) [7] rfl
  exact (keeps.mpr (.inr (.inr (.inr ⟨_, rfl⟩)))).2

end SftpServer.Sftp
