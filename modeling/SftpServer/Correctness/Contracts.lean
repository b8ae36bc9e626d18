import SftpServer.Sftp.Dispatch

/-! What each handler may ask of the driver and what it replies, one contract for each.
The handle table is described by the files it refers to, and every contract about the
table rests on three facts: what `insert`, `erase` and `get` do to that list.
-/

namespace SftpServer.Sftp

open SftpServer.Foundations
open SftpServer.Wire

namespace Handles

/-- Storing under a token puts the new file before what other tokens refer to. -/
theorem openFiles_insert (t : Handles) (tok : Bytes) (h : OpenFile)
    : openFiles (AList.insert tok h t) = h :: openFiles (t.erase tok) :=
  rfl

theorem openFiles_erase_sublist (t : Handles) (tok : Bytes)
    : (openFiles (t.erase tok)).Sublist t.openFiles :=
  (List.kerase_sublist tok t.entries).map _

theorem mem_of_get {t : Handles} {tok : Bytes} {h : OpenFile} (found : t.get tok = some h)
    : tok ∈ t :=
  AList.lookup_isSome.mp (by rw [show t.lookup tok = some h from found]; rfl)

/-- What a token resolves to is one of the table's files, and the others stay when it is
erased.
-/
theorem openFiles_perm_of_get {t : Handles} {tok : Bytes} {h : OpenFile}
    (found : t.get tok = some h)
    : t.openFiles.Perm (h :: openFiles (t.erase tok)) := by
  -- The first entry under the token is the one found and the one erased.
  obtain ⟨value, before, after, fresh, whole, erased⟩ :=
    List.exists_of_kerase (AList.mem_keys.mp (mem_of_get found))
  have same : value = h := by
    have looked : t.entries.dlookup tok = some h := found
    rw [whole, List.dlookup_append, List.dlookup_eq_none.mpr fresh] at looked
    simpa using looked
  subst same
  have parts : openFiles (t.erase tok) = (before ++ after).map fun entry => entry.2 :=
    congrArg _ erased
  rw [parts, openFiles, whole]
  simp [List.perm_middle]

theorem mem_openFiles_of_get {t : Handles} {tok : Bytes} {h : OpenFile}
    (found : t.get tok = some h)
    : h ∈ t.openFiles :=
  (openFiles_perm_of_get found).mem_iff.mpr (by simp)

/-- What a token names after an `insert` is what was stored or what it named before. -/
theorem get_insert_cases {t : Handles} {tok other : Bytes} {h new : OpenFile}
    (found : get (AList.insert tok new t) other = some h)
    : other = tok ∧ h = new ∨ other ≠ tok ∧ t.get other = some h := by
  by_cases same : other = tok
  · subst same
    rw [get, AList.lookup_insert] at found
    exact .inl ⟨rfl, (Option.some.inj found).symm⟩
  · rw [get, AList.lookup_insert_ne same] at found
    exact .inr ⟨same, found⟩

theorem get_of_get_erase {t : Handles} {tok other : Bytes} {h : OpenFile}
    (found : get (t.erase tok) other = some h)
    : t.get other = some h := by
  by_cases same : other = tok
  · rw [same, get, AList.lookup_erase] at found
    cases found
  · rwa [get, AList.lookup_erase_ne same] at found

theorem eq_erase_of_remove {t later : Handles} {tok : Bytes} {h : OpenFile}
    (removed : t.remove tok = some (h, later))
    : later = t.erase tok := by
  unfold remove at removed
  split at removed
  · cases removed
  · cases removed
    rfl

end Handles

/-- The path arguments of a call; the target of a symlink is data, not a path. -/
def DriverCall.paths : DriverCall → List Bytes
  | .stat path | .readFile path | .writeFile path _ _ | .listDir path | .readLink path
  | .mkDir path _ | .deleteFile path | .deleteDir path | .symlink _ path
  | .truncate path _ | .chmod path _ | .chown path _ _ | .chtimes path _ _
  | .openFile path => [path]
  | .rename oldPath newPath => [oldPath, newPath]
  | .fileReadAt _ _ _ | .fileWriteAt _ _ _ | .fileSize _ | .fileTruncate _ _ | .fileSync _
  | .fileClose _ | .copyRange _ _ _ _ _ => []

/-- The calls a read-only export must never make. -/
def DriverCall.mutates : DriverCall → Bool
  | .writeFile _ _ _ | .mkDir _ _ | .deleteFile _ | .deleteDir _ | .rename _ _
  | .symlink _ _ | .truncate _ _ | .chmod _ _ | .chown _ _ _ | .chtimes _ _ _
  | .fileWriteAt _ _ _ | .fileTruncate _ _ | .fileSync _ | .copyRange _ _ _ _ _ => true
  | .stat _ | .readFile _ | .listDir _ | .readLink _ | .openFile _ | .fileReadAt _ _ _
  | .fileSize _ | .fileClose _ => false

/-- The open files a call works on. -/
def DriverCall.files : DriverCall → List File
  | .fileReadAt file _ _ | .fileWriteAt file _ _ | .fileSize file | .fileTruncate file _
  | .fileSync file | .fileClose file => [file]
  | .copyRange dst src _ _ _ => [dst, src]
  | .stat _ | .readFile _ | .writeFile _ _ _ | .listDir _ | .readLink _ | .mkDir _ _
  | .deleteFile _ | .deleteDir _ | .rename _ _ | .symlink _ _ | .truncate _ _ | .chmod _ _
  | .chown _ _ _ | .chtimes _ _ _ | .openFile _ => []

/-- A call that neither opens nor closes a file. -/
def DriverCall.isSteady : DriverCall → Bool
  | .openFile _ | .fileClose _ => false
  | _ => true

/-- A call limited to some paths and some open files, and to reading on a read-only
export.
-/
structure DriverCall.Within (srv : Server) (paths : Bytes → Prop) (files : File → Prop)
    (call : DriverCall) : Prop where
  paths : ∀ path ∈ call.paths, paths path
  files : ∀ file ∈ call.files, files file
  readOnly : srv.ro = true → call.mutates = false

/-- What any handler is limited to. -/
def Sanctioned (srv : Server) (paths : Bytes → Prop) (files : File → Prop) : Effect → Prop
  | .driver call => call.Within srv paths files
  | .lock _ => True
  | .randRead => True

/-- What a handler that opens and closes nothing is limited to. -/
def Steady (srv : Server) (paths : Bytes → Prop) (files : File → Prop) : Effect → Prop
  | .driver call => call.isSteady = true ∧ call.Within srv paths files
  | .lock _ => True
  | .randRead => False

theorem Steady.sanctioned {srv : Server} {paths : Bytes → Prop} {files : File → Prop}
    {effect : Effect} (steady : Steady srv paths files effect)
    : Sanctioned srv paths (fun _ => True) effect := by
  cases effect with
  | driver call => exact { steady.2 with files := fun _ _ => trivial }
  | lock op => trivial
  | randRead => trivial

/-- The id a reply is sent under. -/
def replyID : Message → UInt32
  | .statusReply m => m.id
  | .handleReply m => m.id
  | .dataReply m => m.id
  | .nameReply m => m.id
  | .attrsReply m => m.id
  | .extendedReply m => m.id
  | _ => 0

def isStatus : Message → Bool
  | .statusReply _ => true
  | _ => false

/-- A STATUS whose code is not OK. -/
def refuses : Message → Bool
  | .statusReply m => m.code != statusOK
  | _ => false

def isHandle : Message → Bool
  | .handleReply _ => true
  | _ => false

def isData : Message → Bool
  | .dataReply _ => true
  | _ => false

def isAttrs : Message → Bool
  | .attrsReply _ => true
  | _ => false

def isExtended : Message → Bool
  | .extendedReply _ => true
  | _ => false

/-- A NAME whose number of items satisfies `count`. -/
def isName (count : Nat → Bool) : Message → Bool
  | .nameReply m => count m.items.length
  | _ => false

/-- A reply under the request's id: of the request's kind, or a refusal. -/
def Answers (id : UInt32) (kind : Message → Bool) (reply : Message) : Prop :=
  replyID reply = id ∧ (kind reply || refuses reply) = true

@[simp]
theorem answers_status_iff (id : UInt32) (kind : Message → Bool) (code : Status)
    (msg : Bytes)
    : Answers id kind (status id code msg)
      ↔ kind (status id code msg) = true ∨ code ≠ statusOK := by
  simp [Answers, replyID, refuses, status]

theorem refuses_status {id : UInt32} {code : Status} {msg : Bytes} (refusal : code ≠ statusOK)
    : refuses (status id code msg) = true := by
  simpa [refuses, status] using refusal

/-- The codes are literals, so that a refusal is one by evaluation. -/
theorem answers_refusal (id : UInt32) (kind : Message → Bool) {code : Status} (msg : Bytes)
    (refusal : code ≠ statusOK)
    : Answers id kind (status id code msg) := by
  rw [answers_status_iff]
  exact Or.inr refusal

theorem answers_statusErr (id : UInt32) (kind : Message → Bool) (err : DriverError)
    {fallback : Status} (honest : fallback ≠ statusOK)
    : Answers id kind (statusErr id err fallback) := by
  rw [statusErr, answers_status_iff]
  exact Or.inr (statusFor_some_ne_ok err honest)

/-- Locks are free: a body keeps its contract when it is locked. -/
theorem asks_withLock {α : Type} {P : Effect → Prop} {Q : α → Prop} {body : Prog α}
    {acquire release : LockOp} (free : ∀ op, P (.lock op)) (asks : body.Asks P Q)
    : (withLock acquire release body).Asks P Q := by
  refine ⟨free acquire, fun _ => ?_⟩
  rw [Interaction.asks_bind]
  exact asks.mono (fun _ holds => holds) (fun value holds => ⟨free release, fun _ => holds⟩)

theorem given_withLock {α : Type} {legal : (effect : Effect) → effect.Answer → Prop}
    {P : Effect → Prop} {Q : α → Prop} {body : Prog α} {acquire release : LockOp}
    (free : ∀ op, P (.lock op)) (holds : (Monitor.given legal P).wp body (fun _ => Q) ())
    : (Monitor.given legal P).wp (withLock acquire release body) (fun _ => Q) () := by
  refine ⟨free acquire, fun _ _ => ?_⟩
  rw [Monitor.wp_bind]
  exact Monitor.wp_mono holds fun _ _ result => ⟨free release, fun _ _ => result⟩

/-- To an environment that locks do not change they are nothing. -/
theorem exec_withLock_of_free {State α : Type}
    {respond : State → (effect : Effect) → effect.Answer × State}
    (free : ∀ s op, (respond s (.lock op)).2 = s) (s : State) {acquire release : LockOp}
    (body : Prog α)
    : Interaction.exec respond s (withLock acquire release body)
      = Interaction.exec respond s body := by
  simp only [withLock, Interaction.exec_ask, Interaction.exec_bind, Interaction.exec_ret, free]

/-- A branch of a locked program is a branch of its body between the two lock events. -/
theorem runs_withLock {α : Type} {acquire release : LockOp} {body : Prog α}
    {calls : List Event} {value : α} (runs : (withLock acquire release body).Runs calls value)
    : ∃ inner,
        calls = ⟨.lock acquire, ()⟩ :: inner ++ [⟨.lock release, ()⟩]
        ∧ body.Runs inner value := by
  unfold withLock at runs
  rw [Interaction.runs_ask_iff] at runs
  obtain ⟨_, rest, rfl, runs⟩ := runs
  obtain ⟨inner, late, result, rfl, first, second⟩ := runs.bind_split
  rw [Interaction.runs_ask_iff] at second
  obtain ⟨_, last, rfl, second⟩ := second
  rw [Interaction.runs_ret_iff] at second
  obtain ⟨rfl, rfl⟩ := second
  exact ⟨inner, rfl, first⟩

section PathHandlers

variable {srv : Server} {paths : Bytes → Prop} {files : File → Prop}
  (within : ∀ path, Canonical path → paths path)

include within in
theorem paths_of_resolve {id : UInt32} {p path : Bytes} (resolved : resolve id p = .ok path)
    : paths path :=
  within _ (clean_canonical (clean_of_resolve resolved))

theorem answers_of_resolve {id : UInt32} {p : Bytes} {bad : Message} (kind : Message → Bool)
    (refused : resolve id p = .error bad)
    : Answers id kind bad := by
  rw [refusal_of_resolve refused]
  exact answers_refusal _ _ _ (by decide)

/-- A harmless call on one path. -/
theorem Steady.read {call : DriverCall} {path : Bytes} (single : call.paths = [path])
    (noFiles : call.files = []) (steady : call.isSteady = true)
    (harmless : call.mutates = false) (inside : paths path)
    : Steady srv paths files (.driver call) := by
  refine ⟨steady, ?_, ?_, fun _ => harmless⟩
  · simpa [single] using inside
  · simp [noFiles]

/-- A mutation by path on an export that is not read-only. -/
theorem Steady.write {call : DriverCall} (noFiles : call.files = [])
    (steady : call.isSteady = true) (writable : srv.ro = false)
    (inside : ∀ path ∈ call.paths, paths path)
    : Steady srv paths files (.driver call) := by
  refine ⟨steady, inside, by simp [noFiles], fun readOnly => ?_⟩
  simp [writable] at readOnly

theorem Steady.writeOne {call : DriverCall} {path : Bytes} (single : call.paths = [path])
    (noFiles : call.files = []) (steady : call.isSteady = true) (writable : srv.ro = false)
    (inside : paths path)
    : Steady srv paths files (.driver call) :=
  .write noFiles steady writable (by simpa [single] using inside)

/-- STAT asks for the path that its own resolves to. -/
theorem opStat_resolved (m : PathRequest)
    (inside : ∀ path, resolve m.id m.path = .ok path → paths path)
    : (opStat srv m).Asks (Steady srv paths files) (Answers m.id isAttrs) := by
  unfold opStat
  cases resolved : resolve m.id m.path with
  | error bad => exact answers_of_resolve _ resolved
  | ok path =>
      refine asks_withLock (fun _ => trivial) ?_
      refine ⟨.read rfl rfl rfl rfl (inside path resolved), ?_⟩
      intro answer
      rcases answer with err | st | st
      · exact answers_statusErr _ _ err (by decide)
      · exact answers_refusal _ _ _ (by decide)
      · exact ⟨rfl, rfl⟩

include within in
theorem opStat_asks (m : PathRequest)
    : (opStat srv m).Asks (Steady srv paths files) (Answers m.id isAttrs) :=
  opStat_resolved m fun _ resolved => paths_of_resolve within resolved

include within in
theorem opFstat_asks (t : Handles) (m : HandleRequest)
    : (opFstat srv t m).Asks (Steady srv paths files) (Answers m.id isAttrs) := by
  unfold opFstat
  split
  · exact answers_refusal _ _ _ (by decide)
  · rename_i h _
    exact opStat_asks within { packetType := 0, id := m.id, path := h.path }

/-- A request that is one driver call is answered with a status. -/
theorem statusOf_asks (id : UInt32) {P : Effect → Prop} {call : Prog (Option DriverError)}
    {fallback : Status} (honest : fallback ≠ statusOK) (asks : call.Asks P fun _ => True)
    : (statusOf id call fallback).Asks P (Answers id isStatus) := by
  unfold statusOf
  rw [Interaction.asks_bind]
  refine asks.mono (fun _ holds => holds) ?_
  intro answer _
  rcases answer with _ | err
  · exact (answers_status_iff _ _ _ _).mpr (Or.inl rfl)
  · exact answers_statusErr _ _ err honest

/-- A mutation by path: refused on a read-only export or for its path, or carried out. -/
theorem asks_mutation {srv : Server} {id : UInt32} {p : Bytes} {op : Bytes → Prog Message}
    {P : Effect → Prop} {Q : Message → Prop}
    (denied : Q (status id statusPermissionDenied errReadOnly))
    (invalid : ∀ bad, resolve id p = .error bad → Q bad)
    (asks : srv.ro = false → ∀ path, resolve id p = .ok path → (op path).Asks P Q)
    : Interaction.Asks P Q (do
        if srv.ro then
          return status id statusPermissionDenied errReadOnly
        match resolve id p with
        | .error bad => return bad
        | .ok path => op path) := by
  split
  · exact denied
  rename_i readWrite
  cases resolved : resolve id p with
  | error bad => exact invalid bad resolved
  | ok path => exact asks (by simpa using readWrite) path resolved

/-- What a step that may refuse ends in: a reply of which `Q` holds, or what `passed` says. -/
def Refusing (Q : Message → Prop) (passed : Prop) : Option Message → Prop
  | some refusal => Q refusal
  | none => passed

theorem Refusing.mono {Q R : Message → Prop} {passed : Prop} {refusal : Option Message}
    (ends : Refusing Q passed refusal) (weaker : ∀ reply, Q reply → R reply)
    : Refusing R passed refusal := by
  cases refusal with
  | none => exact ends
  | some reply => exact weaker reply ends

/-- The rule for such a step: what it establishes by not refusing is there for the rest. -/
theorem asks_refusing {P : Effect → Prop} {Q : Message → Prop} {passed : Prop}
    {step : Prog (Option Message)} {rest : Prog Message}
    (first : step.Asks P (Refusing Q passed)) (second : passed → rest.Asks P Q)
    : Interaction.Asks P Q (do
        if let some refusal ← step then
          return refusal
        rest) := by
  rw [Interaction.asks_bind]
  refine first.mono (fun _ holds => holds) ?_
  intro refusal contract
  cases refusal with
  | none => exact second contract
  | some reply => exact contract

theorem setAttribute_asks (id : UInt32) (announced : Bool) {P : Effect → Prop}
    {call : Prog (Option DriverError)} (asks : announced = true → call.Asks P fun _ => True)
    : (setAttribute id announced call).Asks P (Refusing (Answers id isStatus) True) := by
  unfold setAttribute
  split
  · trivial
  · rename_i present
    rw [Interaction.asks_bind]
    refine (asks (by simpa using present)).mono (fun _ holds => holds) ?_
    intro answer _
    rcases answer with _ | err
    · trivial
    · exact answers_statusErr id isStatus err (by decide)

/-- The size of a SETSTAT is set only where the driver can truncate and the size fits. -/
theorem setSize_asks (id : UInt32) (path : Bytes) (a : Attributes) {P : Effect → Prop}
    (reached : a.has attrSize = true → srv.truncater = true → a.size ≤ maxInt64
      → P (.driver (.truncate path a.size.toInt64)))
    : (setSize srv id path a).Asks P (Refusing (Answers id isStatus)
        (a.has attrSize = true → srv.truncater = true ∧ a.size ≤ maxInt64)) := by
  unfold setSize
  split
  · rename_i absent
    exact fun present => absurd present (by simpa using absent)
  split
  · exact answers_refusal _ _ _ (by decide)
  split
  · exact answers_refusal _ _ _ (by decide)
  · rename_i present able fits
    have able : srv.truncater = true := by simpa using able
    have fits : a.size ≤ maxInt64 := UInt64.not_lt.mp fits
    refine ⟨reached (by simpa using present) able fits, ?_⟩
    intro answer
    rcases answer with _ | err
    · exact fun _ => ⟨able, fits⟩
    · exact answers_statusErr id isStatus err (by decide)

/-- Whether a SETSTAT with these attributes comes to call the driver. -/
def setstatCalls (srv : Server) (a : Attributes) : Bool :=
  !srv.ro
  && if a.has attrSize then srv.truncater && decide (a.size ≤ maxInt64)
    else srv.metadataSetter
      && (a.has attrPermissions || a.has attrUIDGID || a.has attrACModTime)

/-- SETSTAT passes on the path it was given, so its contract asks for that path whenever
the attributes lead to a call.
-/
theorem opSetstat_asks (id : UInt32) (path : Bytes) (a : Attributes)
    (inside : setstatCalls srv a = true → paths path)
    : (opSetstat srv id path a).Asks (Steady srv paths files) (Answers id isStatus) := by
  unfold opSetstat
  split
  · exact answers_refusal _ _ _ (by decide)
  rename_i readWrite
  have writable : srv.ro = false := by simpa using readWrite
  refine asks_withLock (fun _ => trivial) (asks_refusing (setSize_asks id path a ?_) ?_)
  · intro present able fits
    have calls : setstatCalls srv a = true := by simp [setstatCalls, *]
    exact .writeOne rfl rfl rfl writable (inside calls)
  intro sized
  unfold setMetadata
  split
  · exact (answers_status_iff _ _ _ _).mpr (Or.inl rfl)
  rename_i able
  have able : srv.metadataSetter = true := by simpa using able
  -- An announced size that was not set ended the request, so it made a call of its own.
  have reached (announced : (a.has attrPermissions || a.has attrUIDGID
      || a.has attrACModTime) = true) : paths path := by
    apply inside
    by_cases present : a.has attrSize = true
    · simp [setstatCalls, writable, present, sized present]
    · simp_all [setstatCalls]
  refine asks_refusing (setAttribute_asks id _ ?_) fun _ => ?_
  · intro present
    exact ⟨.writeOne rfl rfl rfl writable (reached (by simp [present])), fun _ => trivial⟩
  refine asks_refusing (setAttribute_asks id _ ?_) fun _ => ?_
  · intro present
    exact ⟨.writeOne rfl rfl rfl writable (reached (by simp [present])), fun _ => trivial⟩
  refine asks_refusing (setAttribute_asks id _ ?_) fun _ => ?_
  · intro present
    exact ⟨.writeOne rfl rfl rfl writable (reached (by simp [present])), fun _ => trivial⟩
  exact (answers_status_iff _ _ _ _).mpr (Or.inl rfl)

theorem opFsetstat_asks (t : Handles) (m : FsetstatRequest)
    (inside : ∀ h ∈ t.openFiles, paths h.path)
    : (opFsetstat srv t m).Asks (Steady srv paths files) (Answers m.id isStatus) := by
  unfold opFsetstat
  split
  · exact answers_refusal _ _ _ (by decide)
  · rename_i h found
    exact opSetstat_asks m.id h.path m.attrs fun _ =>
      inside h (Handles.mem_openFiles_of_get found)

theorem opRealpath_asks (m : PathRequest)
    : (opRealpath m).Asks (Steady srv paths files) (Answers m.id (isName (· == 1))) := by
  unfold opRealpath
  cases resolved : resolve m.id m.path with
  | error bad => exact answers_of_resolve _ resolved
  | ok path => exact ⟨rfl, rfl⟩

include within in
theorem opMkdir_asks (m : SetstatRequest)
    : (opMkdir srv m).Asks (Steady srv paths files) (Answers m.id isStatus) := by
  refine asks_mutation (answers_refusal _ _ _ (by decide))
    (fun _ resolved => answers_of_resolve _ resolved) fun writable path resolved => ?_
  refine asks_withLock (fun _ => trivial) (statusOf_asks _ (by decide) ⟨?_, fun _ => trivial⟩)
  exact .writeOne rfl rfl rfl writable (paths_of_resolve within resolved)

include within in
theorem opRemove_asks (m : PathRequest)
    : (opRemove srv m).Asks (Steady srv paths files) (Answers m.id isStatus) := by
  refine asks_mutation (answers_refusal _ _ _ (by decide))
    (fun _ resolved => answers_of_resolve _ resolved) fun writable path resolved => ?_
  have inside : paths path := paths_of_resolve within resolved
  refine asks_withLock (fun _ => trivial) (statusOf_asks _ (by decide) ?_)
  split
  · exact ⟨.writeOne rfl rfl rfl writable inside, fun _ => trivial⟩
  · exact ⟨.writeOne rfl rfl rfl writable inside, fun _ => trivial⟩

include within in
theorem opRename_asks (m : RenameRequest)
    : (opRename srv m).Asks (Steady srv paths files) (Answers m.id isStatus) := by
  refine asks_mutation (answers_refusal _ _ _ (by decide))
    (fun _ resolved => answers_of_resolve _ resolved) fun writable oldPath oldResolved => ?_
  cases newResolved : resolve m.id m.newPath with
  | error bad => exact answers_of_resolve _ newResolved
  | ok newPath =>
      refine asks_withLock (fun _ => trivial)
        (statusOf_asks _ (by decide) ⟨?_, fun _ => trivial⟩)
      refine .write rfl rfl writable ?_
      simp [DriverCall.paths, paths_of_resolve within oldResolved,
        paths_of_resolve within newResolved]

include within in
theorem opReadlink_asks (m : PathRequest)
    : (opReadlink m).Asks (Steady srv paths files) (Answers m.id (isName (· == 1))) := by
  unfold opReadlink
  cases resolved : resolve m.id m.path with
  | error bad => exact answers_of_resolve _ resolved
  | ok path =>
      refine asks_withLock (fun _ => trivial) ?_
      refine ⟨.read rfl rfl rfl rfl (paths_of_resolve within resolved), ?_⟩
      intro answer
      rcases answer with err | target
      · exact answers_statusErr _ _ err (by decide)
      · exact ⟨rfl, rfl⟩

include within in
theorem opSymlink_asks (m : SymlinkRequest)
    : (opSymlink srv m).Asks (Steady srv paths files) (Answers m.id isStatus) := by
  refine asks_mutation (answers_refusal _ _ _ (by decide))
    (fun _ resolved => answers_of_resolve _ resolved) fun writable linkPath resolved => ?_
  split
  · exact answers_refusal _ _ _ (by decide)
  refine asks_withLock (fun _ => trivial) (statusOf_asks _ (by decide) ⟨?_, fun _ => trivial⟩)
  exact .writeOne rfl rfl rfl writable (paths_of_resolve within resolved)

end PathHandlers

end SftpServer.Sftp
