import SftpServer.Correctness.Contracts

/-! The shapes a session's handles can have, and the contracts of the handlers that change
the table: each keeps every entry well-formed and the table within its bound.
-/

namespace SftpServer.Sftp

open SftpServer.Foundations
open SftpServer.Wire

/-- The shape of one entry: a directory has no file, a writable handle is written through
the file it reads, and a read-only export has no handle for writing.
-/
structure OpenFile.WellFormed (srv : Server) (h : OpenFile) : Prop where
  canonical : Canonical h.path
  directory : h.dir = true
    → h.file = none ∧ h.writable = none ∧ h.write = false ∧ h.pos ≤ h.entries.length
  writable : h.dir = false → ∀ file, h.writable = some file
    → h.write = true ∧ h.file = some file
  written : h.dir = false → h.write = true → h.file.isSome = true → h.writable.isSome = true
  readOnly : srv.ro = true → h.write = false

/-- A table within its bound, every entry well-formed. -/
structure Handles.WellFormed (srv : Server) (t : Handles) : Prop where
  bounded : t.openFiles.length ≤ maxOpenHandles
  entries : ∀ h ∈ t.openFiles, h.WellFormed srv

namespace Handles

theorem wellFormed_empty (srv : Server) : WellFormed srv ∅ where
  bounded := Nat.zero_le _
  entries := by simp [openFiles]

theorem WellFormed.erase {srv : Server} {t : Handles} (wellFormed : t.WellFormed srv)
    (tok : Bytes)
    : WellFormed srv (t.erase tok) where
  bounded := (openFiles_erase_sublist t tok).length_le.trans wellFormed.bounded
  entries h member := wellFormed.entries h ((openFiles_erase_sublist t tok).subset member)

/-- A table with room stays within its bound, whatever token is drawn. -/
theorem WellFormed.insert {srv : Server} {t : Handles} (wellFormed : t.WellFormed srv)
    (tok : Bytes) {h : OpenFile} (shape : h.WellFormed srv) (room : t.full = false)
    : WellFormed srv (AList.insert tok h t) where
  bounded := by
    have bound : t.openFiles.length < maxOpenHandles := by simpa [full, openFiles] using room
    have shrinks := (openFiles_erase_sublist t tok).length_le
    rw [openFiles_insert, List.length_cons]
    omega
  entries other member := by
    rw [openFiles_insert, List.mem_cons] at member
    rcases member with rfl | old
    · exact shape
    · exact (wellFormed.erase tok).entries other old

/-- Moving the position of an entry keeps the table well-formed. -/
theorem WellFormed.update {srv : Server} {t : Handles} (wellFormed : t.WellFormed srv)
    {tok : Bytes} {old new : OpenFile} (found : t.get tok = some old)
    (shape : new.WellFormed srv)
    : WellFormed srv (AList.insert tok new t) where
  bounded := by
    have same := (openFiles_perm_of_get found).length_eq
    rw [openFiles_insert, List.length_cons]
    rw [List.length_cons] at same
    exact same ▸ wellFormed.bounded
  entries other member := by
    rw [openFiles_insert, List.mem_cons] at member
    rcases member with rfl | kept
    · exact shape
    · exact (wellFormed.erase tok).entries other kept

theorem WellFormed.get {srv : Server} {t : Handles} (wellFormed : t.WellFormed srv)
    {tok : Bytes} {h : OpenFile} (found : t.get tok = some h)
    : h.WellFormed srv :=
  wellFormed.entries h (mem_openFiles_of_get found)

/-- The driver's files the table holds open. -/
def files (t : Handles) : List File := t.openFiles.filterMap fun h => h.file

/-- The same files, each with the path of its handle. -/
def owned (handles : List OpenFile) : List (Bytes × File) :=
  handles.filterMap fun h => h.file.map fun file => (h.path, file)

theorem mem_files_of_get {t : Handles} {tok : Bytes} {h : OpenFile} {file : File}
    (found : t.get tok = some h) (opened : h.file = some file)
    : file ∈ t.files :=
  List.mem_filterMap.mpr ⟨h, mem_openFiles_of_get found, opened⟩

end Handles

section Readdir

variable {srv : Server} {paths : Bytes → Prop} {files : File → Prop}
  (within : ∀ path, Canonical path → paths path)

include within in
theorem readdirItem_asks {dir : Bytes} (canonical : Canonical dir) (e : DirEntry)
    : (readdirItem srv dir e).Asks (Steady srv paths files) fun _ => True := by
  unfold readdirItem
  split
  · trivial
  · rename_i full joined
    refine ⟨.read rfl rfl rfl rfl (within full (join_canonical canonical joined)), ?_⟩
    intro answer
    rcases answer with err | st | st <;> trivial

include within in
/-- A batch states each entry it can name, by induction on the batch. -/
theorem readdirItems_asks {dir : Bytes} (canonical : Canonical dir) (batch : List DirEntry)
    : (readdirItems srv dir batch).Asks (Steady srv paths files) fun _ => True := by
  induction batch with
  | nil => trivial
  | cons e rest ih =>
      unfold readdirItems
      simp only [Interaction.asks_bind]
      refine (readdirItem_asks within canonical e).mono (fun _ holds => holds) ?_
      intro item _
      refine ih.mono (fun _ holds => holds) ?_
      intro items _
      trivial

include within in
/-- The loop stays within the listing, by induction along its own recursion. -/
theorem readdirLoop_asks {dir : Bytes} (canonical : Canonical dir)
    (entries : List DirEntry) (pos : Nat) (inside : pos ≤ entries.length)
    : (readdirLoop srv dir entries pos).Asks (Steady srv paths files)
        fun result => result.2 ≤ entries.length := by
  induction pos using readdirLoop.induct entries with
  | case1 pos more stop ih =>
      rw [readdirLoop, dif_pos more, Interaction.asks_bind]
      refine (readdirItems_asks within canonical _).mono (fun _ holds => holds) ?_
      intro items _
      split
      · exact ih (Nat.min_le_right _ _)
      · exact Nat.min_le_right _ _
  | case2 pos done =>
      rw [readdirLoop, dif_neg done]
      exact inside

include within in
/-- READDIR moves the position of its handle and nothing else. -/
theorem opReaddir_asks {t : Handles} (wellFormed : t.WellFormed srv) (m : HandleRequest)
    : (opReaddir srv t m).Asks (Steady srv paths files) fun result =>
        Answers m.id (isName (0 < ·)) result.1
        ∧ result.2.WellFormed srv
        ∧ (Handles.owned result.2.openFiles).Perm (Handles.owned t.openFiles)
        ∧ ∀ tok ∈ result.2, tok ∈ t := by
  unfold opReaddir
  split
  · exact ⟨answers_refusal _ _ _ (by decide), wellFormed, .rfl, fun _ member => member⟩
  rename_i h found
  have shape : h.WellFormed srv := wellFormed.get found
  split
  · exact ⟨answers_refusal _ _ _ (by decide), wellFormed, .rfl, fun _ member => member⟩
  rename_i directory
  have directory : h.dir = true := by simpa using directory
  obtain ⟨noFile, noWritable, noWrite, position⟩ := shape.directory directory
  refine asks_withLock (fun _ => trivial) ?_
  rw [Interaction.asks_bind]
  refine (readdirLoop_asks within shape.canonical h.entries h.pos position).mono
    (fun _ holds => holds) ?_
  intro opened moved
  obtain ⟨items, pos⟩ := opened
  -- A directory has no file, so the entry keeps its shape wherever its position is.
  have later : Handles.WellFormed srv (AList.insert m.handle { h with pos } t) := by
    refine wellFormed.update found ?_
    exact {
      canonical := shape.canonical
      directory := fun _ => ⟨noFile, noWritable, noWrite, moved⟩
      writable := fun file => absurd file (by simp [directory])
      written := fun file => absurd file (by simp [directory])
      readOnly := shape.readOnly
    }
  have owned : (Handles.owned (Handles.openFiles (AList.insert m.handle { h with pos } t))).Perm
      (Handles.owned t.openFiles) := by
    have before := (Handles.openFiles_perm_of_get found).filterMap fun h =>
      h.file.map fun file => (h.path, file)
    rw [Handles.openFiles_insert]
    exact before.symm
  have keys : ∀ tok ∈ AList.insert m.handle { h with pos } t, tok ∈ t := by
    intro tok member
    rcases (AList.mem_insert t).mp member with rfl | old
    · exact Handles.mem_of_get found
    · exact old
  dsimp only
  split
  · exact ⟨answers_refusal _ _ _ (by decide), later, owned, keys⟩
  · rename_i some
    refine ⟨⟨rfl, ?_⟩, later, owned, keys⟩
    simpa [isName, refuses, List.length_pos_iff] using some

end Readdir

section Opening

variable {srv : Server} {paths : Bytes → Prop} {t : Handles}

/-- A harmless call on one path. -/
theorem Sanctioned.read {call : DriverCall} {path : Bytes} {files : File → Prop}
    (single : call.paths = [path]) (noFiles : call.files = [])
    (harmless : call.mutates = false) (inside : paths path)
    : Sanctioned srv paths files (.driver call) := by
  refine ⟨?_, ?_, fun _ => harmless⟩
  · simpa [single] using inside
  · simp [noFiles]

variable (within : ∀ path, Canonical path → paths path) (wellFormed : t.WellFormed srv)

theorem directory_wellFormed {path : Bytes} (canonical : Canonical path)
    (entries : List DirEntry)
    : OpenFile.WellFormed srv { path, dir := true, entries } where
  canonical := canonical
  directory := fun _ => ⟨rfl, rfl, rfl, Nat.zero_le _⟩
  writable := by simp
  written := by simp
  readOnly := fun _ => rfl

theorem canonical_of_resolve {id : UInt32} {p path : Bytes}
    (resolved : resolve id p = .ok path)
    : Canonical path :=
  paths_of_resolve (fun _ canonical => canonical) resolved

include within wellFormed in
theorem opOpendir_asks (m : PathRequest)
    : (opOpendir t m).Asks (Sanctioned srv paths fun _ => True) fun result =>
        Answers m.id isHandle result.1 ∧ result.2.WellFormed srv := by
  unfold opOpendir
  cases resolved : resolve m.id m.path with
  | error bad => exact ⟨answers_of_resolve _ resolved, wellFormed⟩
  | ok path =>
      dsimp only
      split
      · exact ⟨answers_refusal _ _ _ (by decide), wellFormed⟩
      rename_i room
      have inside : paths path := paths_of_resolve within resolved
      refine asks_withLock (fun _ => trivial) (.call (.read rfl rfl rfl inside) ?_)
      intro answer
      rcases answer with err | st | st
      · exact ⟨answers_statusErr _ _ err (by decide), wellFormed⟩
      · exact ⟨answers_refusal _ _ _ (by decide), wellFormed⟩
      dsimp only
      split
      · exact ⟨answers_refusal _ _ _ (by decide), wellFormed⟩
      refine .call (.read rfl rfl rfl inside) ?_
      intro answer
      rcases answer with err | entries
      · exact ⟨answers_statusErr _ _ err (by decide), wellFormed⟩
      refine ⟨trivial, ?_⟩
      intro answer
      rcases answer with err | drawn
      · exact ⟨answers_refusal _ _ _ (by decide), wellFormed⟩
      -- Whatever token was drawn: one that is in use would replace its entry.
      · exact ⟨⟨rfl, rfl⟩, wellFormed.insert _
          (directory_wellFormed (canonical_of_resolve resolved) entries) (by simpa using room)⟩

theorem add_asks (t : Handles) (h : OpenFile) {P : Effect → Prop} (random : P .randRead)
    : (t.add h).Asks P fun result =>
        ∀ stored ∈ result.toOption, stored.2 = AList.insert stored.1 h t := by
  refine .call random ?_
  intro answer
  rcases answer with err | drawn
  · simp [Except.toOption]
  · simp [Except.toOption]

theorem closeFile_asks {h : OpenFile} {P : Effect → Prop}
    (closes : ∀ file, h.file = some file → P (.driver (.fileClose file)))
    : h.closeFile.Asks P fun _ => True := by
  unfold OpenFile.closeFile
  split
  · rename_i file opened
    exact ⟨closes file opened, fun _ => trivial⟩
  · trivial

theorem Sanctioned.close (file : File)
    : Sanctioned srv paths (fun _ => True) (.driver (.fileClose file)) :=
  ⟨by simp [DriverCall.paths], fun _ _ => trivial, fun _ => rfl⟩

include wellFormed in
/-- Registering a handle of a good shape keeps the table well-formed. -/
theorem registerHandle_asks (id : UInt32) {h : OpenFile} (shape : h.WellFormed srv)
    (room : t.full = false)
    : (registerHandle t id h).Asks (Sanctioned srv paths fun _ => True) fun result =>
        Answers id isHandle result.1 ∧ result.2.WellFormed srv := by
  unfold registerHandle
  rw [Interaction.asks_bind]
  refine (add_asks t h trivial).mono (fun _ holds => holds) ?_
  intro answer stored
  rcases answer with err | ⟨tok, later⟩
  · dsimp only
    rw [Interaction.asks_bind]
    refine (closeFile_asks fun file _ => Sanctioned.close file).mono (fun _ holds => holds) ?_
    exact fun _ _ => ⟨answers_refusal _ _ _ (by decide), wellFormed⟩
  · obtain rfl : later = AList.insert tok h t := stored _ rfl
    exact ⟨⟨rfl, rfl⟩, wellFormed.insert tok shape room⟩

/-- The handles OPEN makes: without a file, with a file to read, or with one to read and
write.
-/
theorem opened_wellFormed {path : Bytes} {write : Bool} {file writable : Option File}
    (canonical : Canonical path) (readOnly : srv.ro = true → write = false)
    (paired : ∀ f, writable = some f → write = true ∧ file = some f)
    (written : write = true → file.isSome = true → writable.isSome = true)
    : OpenFile.WellFormed srv { path, write, file, writable } where
  canonical := canonical
  directory := by simp
  writable := fun _ => paired
  written := fun _ => written
  readOnly := readOnly

include within wellFormed in
theorem finishOpen_asks (id : UInt32) {path : Bytes} (canonical : Canonical path)
    {write : Bool} (readOnly : srv.ro = true → write = false) (room : t.full = false)
    : (finishOpen srv t id path write).Asks (Sanctioned srv paths fun _ => True)
        fun result => Answers id isHandle result.1 ∧ result.2.WellFormed srv := by
  unfold finishOpen
  split
  · exact registerHandle_asks wellFormed id
      (opened_wellFormed canonical readOnly (by simp) (by simp)) room
  refine .call (.read rfl rfl rfl (within path canonical)) ?_
  intro answer
  rcases answer with err | none | file
  · exact ⟨answers_statusErr _ _ err (by decide), wellFormed⟩
  · exact ⟨answers_refusal _ _ _ (by decide), wellFormed⟩
  dsimp only
  split
  · rename_i reading
    exact registerHandle_asks wellFormed id
      (opened_wellFormed canonical readOnly (by simp) (by simp_all)) room
  rename_i writing
  split
  · exact registerHandle_asks wellFormed id
      (opened_wellFormed canonical readOnly (by simp_all) (by simp)) room
  -- A snapshot: closed again, and the handle goes without a file.
  refine .call (Sanctioned.close file) ?_
  intro answer
  rcases answer with _ | err
  · exact registerHandle_asks wellFormed id
      (opened_wellFormed canonical readOnly (by simp) (by simp)) room
  · exact ⟨answers_statusErr _ _ err (by decide), wellFormed⟩

/-- `Stat` answered `(nil, nil)` to an OPEN that does not create the file. -/
def NilStat (m : OpenRequest) (st : Option Stat) (statErr : Option DriverError) : Prop :=
  st = none ∧ statErr = none ∧ m.pflags &&& fxfCreat = 0

/-- What OPEN answers once `Stat` has: a handle or a refusal, except that a nil `Stat`
without an error is answered with the status of a nil error, which is OK.
-/
def OpenAnswers (srv : Server) (t : Handles) (m : OpenRequest) (st : Option Stat)
    (statErr : Option DriverError) (result : Message × Handles) : Prop :=
  result.2.WellFormed srv
  ∧ (NilStat m st statErr → result = (status m.id statusOK [], t))
  ∧ (¬NilStat m st statErr → Answers m.id isHandle result.1)

theorem openAnswers_of_answers {m : OpenRequest} {st : Option Stat}
    {statErr : Option DriverError} {result : Message × Handles}
    (known : ¬NilStat m st statErr)
    (answers : Answers m.id isHandle result.1 ∧ result.2.WellFormed srv)
    : OpenAnswers srv t m st statErr result :=
  ⟨answers.2, fun unknown => absurd unknown known, fun _ => answers.1⟩

include wellFormed in
/-- The two refusals of OPEN that report what `Stat` said. -/
theorem openAnswers_missing {m : OpenRequest} {statErr : Option DriverError}
    (noCreate : m.pflags &&& fxfCreat = 0)
    : OpenAnswers srv t m none statErr (statusErr m.id statErr statusNoSuchFile, t) := by
  cases statErr with
  | none => exact ⟨wellFormed, fun _ => rfl, fun known => absurd ⟨rfl, rfl, noCreate⟩ known⟩
  | some err =>
      exact ⟨wellFormed, fun unknown => absurd unknown.2.1 (by simp),
        fun _ => answers_statusErr _ _ err (by decide)⟩

include within wellFormed in
theorem openForWrite_asks (m : OpenRequest) {path : Bytes} (canonical : Canonical path)
    (st : Option Stat) (statErr : Option DriverError) (writable : srv.ro = false)
    (room : t.full = false)
    : (openForWrite srv t m path st statErr).Asks (Sanctioned srv paths fun _ => True)
        (OpenAnswers srv t m st statErr) := by
  have finish : ¬NilStat m st statErr
      → (finishOpen srv t m.id path true).Asks (Sanctioned srv paths fun _ => True)
        (OpenAnswers srv t m st statErr) := by
    intro known
    refine (finishOpen_asks within wellFormed m.id canonical (by simp [writable]) room).mono
      (fun _ holds => holds) ?_
    exact fun _ answers => openAnswers_of_answers known answers
  unfold openForWrite
  split
  · rename_i refused
    refine openAnswers_of_answers ?_ ⟨answers_refusal _ _ _ (by decide), wellFormed⟩
    intro both
    obtain ⟨rfl, _⟩ := both
    simp at refused
  split
  · rename_i missing
    obtain ⟨absent, noCreate⟩ := missing
    obtain rfl : st = none := by simpa using absent
    exact openAnswers_missing wellFormed noCreate
  rename_i found
  -- Past both refusals the request either found the file or creates it.
  have known : ¬NilStat m st statErr := by
    intro held
    obtain ⟨rfl, _, noCreate⟩ := held
    exact found ⟨rfl, noCreate⟩
  split
  · refine .call ?_ ?_
    · exact ⟨by simpa [DriverCall.paths] using within path canonical,
        by simp [DriverCall.files], by simp [writable]⟩
    intro answer
    rcases answer with _ | err
    · exact finish known
    · exact openAnswers_of_answers known ⟨answers_statusErr _ _ err (by decide), wellFormed⟩
  · exact finish known

/-- The flags that ask for a mutation are all clear on an OPEN that asks for none. -/
theorem clear_of_not_wantsWrite {pflags flag : UInt32} (reading : wantsWrite pflags = false)
    (covered : (fxfWrite ||| fxfAppend ||| fxfCreat ||| fxfTrunc ||| fxfExcl) &&& flag = flag)
    : pflags &&& flag = 0 := by
  have clear : pflags &&& (fxfWrite ||| fxfAppend ||| fxfCreat ||| fxfTrunc ||| fxfExcl) = 0 := by
    simpa [wantsWrite] using reading
  calc pflags &&& flag
      _ = pflags &&& ((fxfWrite ||| fxfAppend ||| fxfCreat ||| fxfTrunc ||| fxfExcl) &&& flag) := by
          rw [covered]
      _ = 0 := by rw [← UInt32.and_assoc, clear, UInt32.zero_and]

theorem noCreate_of_not_wantsWrite {pflags : UInt32} (reading : wantsWrite pflags = false)
    : pflags &&& fxfCreat = 0 :=
  clear_of_not_wantsWrite reading (by decide)

include within wellFormed in
theorem openStated_asks (m : OpenRequest) {path : Bytes} (canonical : Canonical path)
    (st : Option Stat) (statErr : Option DriverError)
    (permitted : (wantsWrite m.pflags && srv.ro) = false) (room : t.full = false)
    : (openStated srv t m path st statErr).Asks (Sanctioned srv paths fun _ => True)
        (OpenAnswers srv t m st statErr) := by
  unfold openStated
  split
  · rename_i directory
    refine openAnswers_of_answers ?_ ⟨answers_refusal _ _ _ (by decide), wellFormed⟩
    intro both
    obtain ⟨rfl, _⟩ := both
    simp at directory
  split
  · rename_i writing
    exact openForWrite_asks within wellFormed m canonical st statErr
      (by simpa [writing] using permitted) room
  rename_i reading
  split
  · rename_i absent
    obtain rfl : st = none := by simpa using absent
    exact openAnswers_missing wellFormed (noCreate_of_not_wantsWrite (by simpa using reading))
  · rename_i present
    refine (finishOpen_asks within wellFormed m.id canonical (fun _ => rfl) room).mono
      (fun _ holds => holds) ?_
    refine fun _ answers => openAnswers_of_answers ?_ answers
    intro both
    obtain ⟨rfl, _⟩ := both
    simp at present

include within wellFormed in
/-- OPEN keeps the table well-formed and answers under its own id. -/
theorem opOpen_asks (m : OpenRequest)
    : (opOpen srv t m).Asks (Sanctioned srv paths fun _ => True) fun result =>
        replyID result.1 = m.id ∧ result.2.WellFormed srv := by
  have weaken {st : Option Stat} {statErr : Option DriverError}
      (result : Message × Handles) (answers : OpenAnswers srv t m st statErr result)
      : replyID result.1 = m.id ∧ result.2.WellFormed srv := by
    refine ⟨?_, answers.1⟩
    by_cases unknown : NilStat m st statErr
    · rw [answers.2.1 unknown]
      rfl
    · exact (answers.2.2 unknown).1
  unfold opOpen
  cases resolved : resolve m.id m.path with
  | error bad => exact ⟨(answers_of_resolve isHandle resolved).1, wellFormed⟩
  | ok path =>
      dsimp only
      split
      · exact ⟨rfl, wellFormed⟩
      rename_i permitted
      split
      · exact ⟨rfl, wellFormed⟩
      rename_i room
      have permitted : (wantsWrite m.pflags && srv.ro) = false := by simpa using permitted
      have room : t.full = false := by simpa using room
      have canonical : Canonical path := canonical_of_resolve resolved
      refine asks_withLock (fun _ => trivial)
        (.call (.read rfl rfl rfl (within path canonical)) ?_)
      intro answer
      rcases answer with err | st
      · exact (openStated_asks within wellFormed m canonical none (some err) permitted room).mono
          (fun _ holds => holds) weaken
      · exact (openStated_asks within wellFormed m canonical st none permitted room).mono
          (fun _ holds => holds) weaken

/-- Only a handle opened for writing is synced. -/
theorem syncFile_asks {h : OpenFile} {files : File → Prop} (shape : h.WellFormed srv)
    (allowed : ∀ file, h.file = some file → files file)
    : h.syncFile.Asks (Steady srv paths files) fun _ => True := by
  unfold OpenFile.syncFile
  split
  · rename_i file opened
    -- A directory has nothing to write through.
    have notDirectory : h.dir = false := by
      by_contra directory
      have := (shape.directory (by simpa using directory)).2.1
      simp [opened] at this
    obtain ⟨write, same⟩ := shape.writable notDirectory file opened
    refine ⟨⟨rfl, by simp [DriverCall.paths], ?_, fun readOnly => ?_⟩, fun _ => trivial⟩
    · simpa [DriverCall.files] using allowed file same
    · exact absurd write (by simp [shape.readOnly readOnly])
  · trivial

include wellFormed in
/-- CLOSE syncs only what was opened for writing, and drops the entry. -/
theorem opClose_asks (m : HandleRequest)
    : (opClose t m).Asks (Sanctioned srv paths fun _ => True) fun result =>
        Answers m.id isStatus result.1 ∧ result.2.WellFormed srv := by
  unfold opClose Handles.remove
  cases found : t.lookup m.handle with
  | none => exact ⟨answers_refusal _ _ _ (by decide), wellFormed⟩
  | some h =>
      have later : Handles.WellFormed srv (t.erase m.handle) := wellFormed.erase _
      refine asks_withLock (fun _ => trivial) ?_
      simp only [Interaction.asks_bind]
      have synced : h.syncFile.Asks (Steady srv paths fun _ => True) fun _ => True :=
        syncFile_asks (wellFormed.get found) fun _ _ => trivial
      refine synced.mono (fun _ => Steady.sanctioned) fun syncErr _ => ?_
      refine (closeFile_asks fun file _ => Sanctioned.close file).mono
        (fun _ holds => holds) fun closeErr _ => ?_
      split
      · exact ⟨answers_statusErr _ _ _ (by decide), later⟩
      · exact ⟨(answers_status_iff _ _ _ _).mpr (Or.inl rfl), later⟩

end Opening

end SftpServer.Sftp
