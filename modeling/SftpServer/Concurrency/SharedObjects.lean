import SftpServer.Concurrency.WriteOrder
import SftpServer.Correctness.FileLifecycle

/-! Sessions of one server side by side. A READ or WRITE is ordered against others by the
path its handle was opened under, while an open file stays the file it is when that path
is renamed. So requests on one file are ordered as long as no session opens, under another
path, a file that is still open.
-/

namespace SftpServer.Sftp

open SftpServer.Foundations
open SftpServer.Wire

-----------------------------------------------------------------------------------------
-- Sessions side by side
-----------------------------------------------------------------------------------------

/-- A session with the files it has opened and not closed, and the paths it opened them
under.
-/
structure Member where
  session : Session := .initial
  held : List (Bytes × File) := []

/-- A session as `Serve` starts it. -/
def Member.initial : Member := {}

section Sessions

variable {ι Object : Type} [DecidableEq ι]

/-- The runs of any number of sessions, one step of one of them at a time, where each step
is one that `admits` lets through.
-/
inductive SessionsRun (srv : Server) (admits : (ι → Member) → ι → List Observation → Prop)
    : (ι → Member) → Prop where
  | start : SessionsRun srv admits fun _ => .initial
  | step {sys : ι → Member} {i : ι} {trace : List Observation} {later : Session}
    (run : SessionsRun srv admits sys)
    (step : Session.Step srv (sys i).session trace later) (admitted : admits sys i trace)
    : SessionsRun srv admits
        (Function.update sys i {
          session := later
          held := fileCustody.monitor.after (sys i).held (effects trace)
        })

/-- `OpenFile` returns a file the session does not hold open already. -/
def Fresh (sys : ι → Member) (i : ι) (trace : List Observation) : Prop :=
  fileCustody.monitor.Legal (sys i).held (effects trace)

/-- A file that is opened and still open, in any session, is open under the same path. -/
def Aligned (object : File → Object) (sys : ι → Member) (_ : ι) (trace : List Observation)
    : Prop :=
  ∀ opened ∈ fileCustody.acquired (effects trace), ∀ j, ∀ entry ∈ (sys j).held,
    object entry.2 = object opened.2 → entry.1 = opened.1

end Sessions

/-- Every request in flight is the job its packet becomes on the table. -/
def Session.Launched (srv : Server) (s : Session) : Prop :=
  ∀ flight ∈ s.flights, ∃ job,
    prepare srv s.handles flight.typ flight.payload = (some job, none)
    ∧ flight.span = job.span

/-- The table does not change while a request is in flight, so that it stays the one the
requests were prepared on.
-/
theorem Session.Step.launched {srv : Server} {s later : Session} {trace : List Observation}
    (step : Session.Step srv s trace later) (safe : s.Safe srv fun _ => True)
    (launched : s.Launched srv)
    : later.Launched srv := by
  have working := safe.phase
  cases step with
  | negotiated phase accepted => exact launched
  | refused phase => exact launched
  | @started typ payload job phase prepared =>
      intro flight member
      rcases List.mem_append.mp member with old | new
      · exact launched flight old
      · rw [List.mem_singleton.mp new]
        exact ⟨job, prepared, rfl⟩
  | early phase alone prepared => exact launched
  | dispatched phase alone prepared => exact launched
  | advanced answer phase => exact launched
  -- The two steps that replace the table find nothing in flight.
  | answered phase =>
      rw [phase] at working
      intro flight member
      exact absurd (working.1 ▸ member) (by simp)
  | @flew before after flight effect next answer inFlight asks =>
      intro other member
      rcases List.mem_append.mp member with first | second
      · exact launched other (by simp [inFlight, first])
      rcases List.mem_cons.mp second with rfl | last
      · exact launched flight (by simp [inFlight])
      · exact launched other (by simp [inFlight, last])
  | @landed before after flight reply inFlight returns =>
      intro other member
      rcases List.mem_append.mp member with first | second
      · exact launched other (by simp [inFlight, first])
      · exact launched other (by simp [inFlight, second])
  | hungUp phase => exact launched
  | drained phase alone all => exact launched
  | closed answer phase => exact launched
  | returned phase =>
      rw [phase] at working
      intro flight member
      exact absurd (working.1 ▸ member) (by simp)

/-- So a step opens one file at most. -/
theorem Session.Step.opens_one {srv : Server} {s later : Session} {trace : List Observation}
    (step : Session.Step srv s trace later)
    : ∀ opened ∈ fileCustody.acquired (effects trace),
        ∀ other ∈ fileCustody.acquired (effects trace), opened = other := by
  rcases step.effects_few with nothing | ⟨event, one⟩
  · simp [nothing, Custody.acquired]
  · rw [one, Custody.acquired_cons]
    simp only [Custody.acquired, List.filterMap_nil, List.append_nil, Option.mem_toList]
    exact fun opened first other second => Option.some.inj (first.symm.trans second)

/-- What holds of each session by itself. -/
structure Member.Sound (srv : Server) (m : Member) : Prop where
  safe : m.session.Safe srv fun _ => True
  tracked : ∃ drawn, m.session.phase.Tracked false (m.held, drawn) m.session.handles
  launched : m.session.Launched srv

theorem Member.initial_sound (srv : Server) : Member.initial.Sound srv where
  safe := Session.initial_safe
  tracked := ⟨[], accounted_initial⟩
  launched := by simp [Session.Launched, Member.initial, Session.initial]

/-- Where tokens may repeat, every draw is legal. -/
theorem draws_legal_any (drawn : List Bytes) (events : List Event)
    : (draws false).Legal drawn events := by
  induction events generalizing drawn with
  | nil => trivial
  | cons event rest ih =>
      refine ⟨?_, ih _⟩
      unfold draws
      dsimp only
      split
      · exact fun impossible => absurd impossible (by simp)
      · trivial

/-- A step keeps what holds of the session that takes it. -/
theorem Member.Sound.step {srv : Server} {m : Member} {later : Session}
    {trace : List Observation} (sound : m.Sound srv)
    (step : Session.Step srv m.session trace later)
    (fresh : fileCustody.monitor.Legal m.held (effects trace))
    : Member.Sound srv {
        session := later
        held := fileCustody.monitor.after m.held (effects trace)
      } := by
  obtain ⟨drawn, tracked⟩ := sound.tracked
  have legal : (lifecycle false).Legal (m.held, drawn) (effects trace) :=
    Monitor.legal_both.mpr ⟨fresh, draws_legal_any drawn _⟩
  have after := (step.tracked sound.safe tracked legal).2
  rw [lifecycle, Monitor.after_both] at after
  exact {
    safe := (step.safe (fun _ _ => trivial) sound.safe (receives_any srv trace)).1
    tracked := ⟨_, after⟩
    launched := step.launched sound.safe sound.launched
  }

/-- While a request is in flight, the files of the table are held open under the paths of
their handles.
-/
theorem Member.Sound.held_of_mem {srv : Server} {m : Member} (sound : m.Sound srv)
    (flying : m.session.flights ≠ []) {h : OpenFile} {file : File}
    (member : h ∈ m.session.handles.openFiles) (opened : h.file = some file)
    : (h.path, file) ∈ m.held := by
  obtain ⟨drawn, tracked⟩ := sound.tracked
  have accounted := tracked.accounted sound.safe.phase flying
  refine accounted.balanced.owns.subset (List.mem_filterMap.mpr ⟨h, member, ?_⟩)
  simp [opened]

-----------------------------------------------------------------------------------------
-- Requests in flight and the files they go through
-----------------------------------------------------------------------------------------

/-- The request of a flight goes through this handle and touches this range, to write it
or not.
-/
inductive Flight.Through (srv : Server) (t : Handles) (flight : Flight)
    : OpenFile → Nat → Nat → Bool → Prop where
  | read {m : ReadRequest} {h : OpenFile} (typ : flight.typ = fxpRead)
    (decodes : decodeRead flight.payload = .ok m) (found : t.get m.handle = some h)
    : Through srv t flight h m.offset.toNat (min m.length.toNat srv.readLength) false
  | write {m : WriteRequest} {h : OpenFile} (typ : flight.typ = fxpWrite)
    (decodes : decodeWrite flight.payload = .ok m) (found : t.get m.handle = some h)
    : Through srv t flight h m.offset.toNat m.data.length true

theorem Flight.Through.mem {srv : Server} {t : Handles} {flight : Flight} {h : OpenFile}
    {off len : Nat} {writes : Bool} (through : flight.Through srv t h off len writes)
    : h ∈ t.openFiles := by
  cases through with
  | read _ _ found => exact Handles.mem_openFiles_of_get found
  | write _ _ found => exact Handles.mem_openFiles_of_get found

/-- The span of a request: the path of its handle, and its range unless it rewrites the
whole file.
-/
theorem Flight.Through.span {srv : Server} {t : Handles} {flight : Flight} {h : OpenFile}
    {off len : Nat} {writes : Bool} {job : Job} (through : flight.Through srv t h off len writes)
    (prepared : prepare srv t flight.typ flight.payload = (some job, none))
    : job.span.key = h.path ∧ job.span.writes = writes
      ∧ ∀ range, job.span.range = some range → range = (off, len) := by
  cases through with
  | read typ decodes found =>
      rw [typ, prepare_read, decodes] at prepared
      obtain ⟨same, found', _, rfl⟩ := readJob_inv prepared
      obtain rfl : same = h := Option.some.inj (found'.symm.trans found)
      exact ⟨rfl, rfl, fun range whole => (Option.some.inj whole).symm⟩
  | write typ decodes found =>
      rw [typ, prepare_write, decodes] at prepared
      obtain ⟨same, found', _, _, _, rfl⟩ := writeJob_inv prepared
      obtain rfl : same = h := Option.some.inj (found'.symm.trans found)
      cases same.writable with
      | none => exact ⟨rfl, rfl, fun range whole => by cases whole⟩
      | some file => exact ⟨rfl, rfl, fun range whole => (Option.some.inj whole).symm⟩

section Sessions

variable {ι Object : Type} [DecidableEq ι] {srv : Server} {object : File → Object}

/-- Files that are open and one object are open under one path. -/
def Agreeing (object : File → Object) (sys : ι → Member) : Prop :=
  ∀ i j, ∀ entry ∈ (sys i).held, ∀ other ∈ (sys j).held,
    object entry.2 = object other.2 → entry.1 = other.1

/-- What is held after a step was held before or is the one file the step opens. -/
theorem agreeing_step {sys : ι → Member} {i : ι} {trace : List Observation}
    {later : Session} (step : Session.Step srv (sys i).session trace later)
    (agreeing : Agreeing object sys) (aligned : Aligned object sys i trace)
    : Agreeing object (Function.update sys i {
        session := later
        held := fileCustody.monitor.after (sys i).held (effects trace)
      }) := by
  have origin : ∀ j, ∀ entry ∈ ((Function.update sys i {
        session := later
        held := fileCustody.monitor.after (sys i).held (effects trace)
      }) j).held,
      (∃ k, entry ∈ (sys k).held) ∨ entry ∈ fileCustody.acquired (effects trace) := by
    intro j entry member
    by_cases same : j = i
    · subst same
      rw [Function.update_self] at member
      exact (Custody.mem_of_mem_after member).imp_left fun before => ⟨j, before⟩
    · rw [Function.update_of_ne same] at member
      exact Or.inl ⟨j, member⟩
  -- Of two files, both were held before, one is the file just opened, or both are.
  intro j k entry first other second same
  rcases origin j entry first with ⟨_, before⟩ | opened
  · rcases origin k other second with ⟨_, before'⟩ | opened'
    · exact agreeing _ _ entry before other before' same
    · exact aligned other opened' _ entry before same
  · rcases origin k other second with ⟨_, before'⟩ | opened'
    · exact (aligned entry opened _ other before' same.symm).symm
    · rw [step.opens_one entry opened other opened']

/-- In every run whose steps are aligned, every session is sound and the open files agree,
by induction on the steps.
-/
theorem SessionsRun.invariant {sys : ι → Member}
    (run : SessionsRun srv (fun sys i trace => Fresh sys i trace ∧ Aligned object sys i trace) sys)
    : (∀ i, (sys i).Sound srv) ∧ Agreeing object sys := by
  induction run with
  | start =>
      refine ⟨fun _ => Member.initial_sound srv, ?_⟩
      intro i j entry member
      cases member
  | @step sys i trace later _ step admitted ih =>
      refine ⟨fun j => ?_, agreeing_step step ih.2 admitted.2⟩
      by_cases same : j = i
      · subst same
        rw [Function.update_self]
        exact (ih.1 j).step step admitted.1
      · rw [Function.update_of_ne same]
        exact ih.1 j

/-- Requests in flight on one file, whose ranges overlap and one of which writes, conflict:
in every run in which no file that is still open is opened under another path.
-/
theorem same_object_conflicts {sys : ι → Member}
    (run : SessionsRun srv (fun sys i trace => Fresh sys i trace ∧ Aligned object sys i trace) sys)
    {i j : ι} {flight other : Flight} (flying : flight ∈ (sys i).session.flights)
    (beside : other ∈ (sys j).session.flights) {h h' : OpenFile} {off len off' len' : Nat}
    {writes writes' : Bool}
    (through : flight.Through srv (sys i).session.handles h off len writes)
    (through' : other.Through srv (sys j).session.handles h' off' len' writes')
    {file file' : File} (opened : h.file = some file) (opened' : h'.file = some file')
    (same : object file = object file') (overlapping : overlap off len off' len' = true)
    (writing : (writes || writes') = true)
    : flight.span.key = other.span.key ∧ flight.span.conflicts other.span = true := by
  obtain ⟨sound, agreeing⟩ := run.invariant
  obtain ⟨job, prepared, span⟩ := (sound i).launched flight flying
  obtain ⟨job', prepared', span'⟩ := (sound j).launched other beside
  obtain ⟨key, kind, range⟩ := through.span prepared
  obtain ⟨key', kind', range'⟩ := through'.span prepared'
  -- Both files are held under the paths of their handles, which therefore agree.
  have held := (sound i).held_of_mem (List.ne_nil_of_mem flying) (through.mem) opened
  have held' := (sound j).held_of_mem (List.ne_nil_of_mem beside) (through'.mem) opened'
  have paths : h.path = h'.path := agreeing i j _ held _ held' same
  have keys : job.span.key = job'.span.key := by rw [key, key', paths]
  rw [span, span']
  refine ⟨keys, ?_⟩
  simp only [Span.conflicts, keys, kind, kind', writing, beq_self_eq_true, Bool.true_and]
  -- A rewrite of the whole file conflicts whatever the other range is.
  split
  · rename_i first second
    obtain ⟨rfl, rfl⟩ := Prod.mk.inj (range _ first)
    obtain ⟨rfl, rfl⟩ := Prod.mk.inj (range' _ second)
    exact overlapping
  · rfl

end Sessions

/-- A run of one session is a run of the sessions, by induction on its steps. -/
theorem SessionsRun.extend {ι : Type} [DecidableEq ι] {srv : Server} {sys : ι → Member} {i : ι}
    {s last : Session} {trace : List Observation} (run : SessionsRun srv Fresh sys)
    (more : Session.Run srv s trace last) (start : (sys i).session = s)
    (fresh : fileCustody.monitor.Legal (sys i).held (effects trace))
    : SessionsRun srv Fresh
        (Function.update sys i {
          session := last
          held := fileCustody.monitor.after (sys i).held (effects trace)
        }) := by
  induction more with
  | refl =>
      have same : ({ session := (sys i).session, held := (sys i).held } : Member) = sys i := rfl
      rw [← start]
      simpa [effects, Monitor.after, same] using run
  | @step middle last early late _ step ih =>
      rw [effects_append, Monitor.legal_append] at fresh
      have before := ih fresh.1
      have stepped : Session.Step srv (Function.update sys i {
            session := middle
            held := fileCustody.monitor.after (sys i).held (effects early)
          } i).session late last := by
        rw [Function.update_self]
        exact step
      have admitted : Fresh (Function.update sys i {
            session := middle
            held := fileCustody.monitor.after (sys i).held (effects early)
          }) i late := by
        rw [Fresh, Function.update_self]
        exact fresh.2
      have after := before.step stepped admitted
      rw [Function.update_self, Function.update_idem] at after
      rw [effects_append, Monitor.after_append]
      exact after

-----------------------------------------------------------------------------------------
-- A rename between two opens
-----------------------------------------------------------------------------------------

/-- An environment that opens a new file and draws a new token each time. -/
def counting (n : Nat) : (effect : Effect) → effect.Answer × Nat
  | .driver (.openFile _) => (.ok (some { id := n, isWritable := true }), n + 1)
  | .randRead => (.ok (Vector.replicate handleBytes n.toUInt8), n + 1)
  | _ => (default, n)

/-- OPEN of a file in the root for reading and writing. -/
def openShared (name : UInt8) : Bytes :=
  [0, 0, 0, 1, 0, 0, 0, 2, 0x2f, name, 0, 0, 0, 3, 0, 0, 0, 0]

/-- RENAME of `/a` to `/b`. -/
def renameShared : Bytes := [0, 0, 0, 1, 0, 0, 0, 2, 0x2f, 0x61, 0, 0, 0, 2, 0x2f, 0x62]

/-- The handle whose random bytes are all `n`. -/
def sharedHandle (n : UInt8) : Bytes := hexEncode (List.replicate handleBytes n)

/-- WRITE of one byte at the start of a file. -/
def writeShared (n : UInt8) : Bytes :=
  [0, 0, 0, 1, 0, 0, 0, 32] ++ sharedHandle n ++ [0, 0, 0, 0, 0, 0, 0, 0, 0, 0, 0, 1, 7]

/-- The calls on the driver among these events. -/
def driverCalls (events : List Event) : List DriverCall :=
  events.filterMap fun event =>
    match event.question with
    | .driver call => some call
    | .lock _ | .randRead => none

/-- A handle on a file in the root, open for reading and writing. -/
def rootHandle (name : UInt8) (id : Nat) : OpenFile where
  path := [0x2f, name]
  file := some { id, isWritable := true }
  writable := some { id, isWritable := true }
  write := true

/-- A client opens `/a`, renames it and opens it again as `/b`. -/
def renamedSession : Session where
  phase := .serving
  handles := AList.insert (sharedHandle 3) (rootHandle 0x62 2)
    (AList.insert (sharedHandle 1) (rootHandle 0x61 0) ∅)

theorem Session.Run.renaming
    : ∃ trace,
        Session.Run sharedServer Session.initial trace renamedSession
        ∧ driverCalls (effects trace)
          = [.stat [0x2f, 0x61], .openFile [0x2f, 0x61], .rename [0x2f, 0x61] [0x2f, 0x62],
              .stat [0x2f, 0x62], .openFile [0x2f, 0x62]]
        ∧ ((fileCustody.acquired (effects trace)).map Prod.snd).Nodup := by
  have opened := (Session.Run.negotiating sharedServer).trans
    (.dispatching fxpOpen (openShared 0x61) rfl rfl rfl
      (Interaction.interpret_runs counting 0 _))
  have renamed := opened.trans
    (.dispatching fxpRename renameShared rfl rfl rfl (Interaction.interpret_runs counting 2 _))
  have reopened := renamed.trans
    (.dispatching fxpOpen (openShared 0x62) rfl rfl rfl
      (Interaction.interpret_runs counting 2 _))
  exact ⟨_, reopened, rfl, by decide⟩

/-- The driver has one file. -/
def onlyObject (_ : File) : Unit := ()

/-- A WRITE in flight through the handle with the random bytes `n`. -/
def sharedFlight (n name : UInt8) (id : Nat) : Flight where
  typ := fxpWrite
  payload := writeShared n
  span := .writeRange [0x2f, name] 0 1
  rest := lockedIo (statusOf 1 (File.writeAt { id, isWritable := true } [7] 0) statusFailure)

/-- After the RENAME, WRITEs of the same byte of one file are in flight through the two
handles, and their spans do not conflict.
-/
theorem renamed_file_escapes_order
    : ∃ trace session,
        Session.Run sharedServer Session.initial trace session
        ∧ driverCalls (effects trace)
          = [.stat [0x2f, 0x61], .openFile [0x2f, 0x61], .rename [0x2f, 0x61] [0x2f, 0x62],
              .stat [0x2f, 0x62], .openFile [0x2f, 0x62]]
        ∧ SessionsRun sharedServer Fresh
            (Function.update (fun _ : Nat => .initial) 0
              { session, held := fileCustody.monitor.after [] (effects trace) })
        ∧ ∃ flight other h h' file file',
            session.flights = [flight, other]
            ∧ flight.Through sharedServer session.handles h 0 1 true
            ∧ other.Through sharedServer session.handles h' 0 1 true
            ∧ h.file = some file
            ∧ h'.file = some file'
            ∧ onlyObject file = onlyObject file'
            ∧ flight.span.conflicts other.span = false := by
  obtain ⟨trace, run, calls, apart⟩ := Session.Run.renaming
  have writing := (run.trans (.starting fxpWrite (writeShared 1) rfl rfl)).trans
    (.starting fxpWrite (writeShared 3) rfl rfl)
  have same : effects ((trace ++ [.received fxpWrite (writeShared 1)])
      ++ [.received fxpWrite (writeShared 3)]) = effects trace := by
    simp [effects]
  refine ⟨_, _, writing, same ▸ calls, .extend .start writing rfl ?_,
    sharedFlight 1 0x61 0, sharedFlight 3 0x62 2, rootHandle 0x61 0, rootHandle 0x62 2, _, _,
    rfl, ?_, ?_, rfl, rfl, rfl, by decide⟩
  · rw [same]
    exact Custody.legal_of_nodup apart
  · exact .write (m := { id := 1, handle := sharedHandle 1, offset := 0, data := [7] })
      rfl rfl rfl
  · exact .write (m := { id := 1, handle := sharedHandle 3, offset := 0, data := [7] })
      rfl rfl rfl

-----------------------------------------------------------------------------------------
-- A session that opens a file once
-----------------------------------------------------------------------------------------

/-- One session that is given a new file by each `OpenFile` is aligned where files are
objects of their own.
-/
theorem SessionsRun.aligned {srv : Server} {sys : Unit → Member}
    (run : SessionsRun srv Fresh sys)
    : SessionsRun srv (fun sys i trace => Fresh sys i trace ∧ Aligned id sys i trace) sys := by
  induction run with
  | start => exact .start
  | @step sys i trace later _ step fresh ih =>
      refine ih.step step ⟨fresh, ?_⟩
      intro opened brought j entry held same
      rcases step.effects_few with nothing | ⟨event, one⟩
      · rw [nothing] at brought
        cases brought
      · rw [Fresh, one] at fresh
        rw [one, Custody.acquired_cons] at brought
        have brought : fileCustody.acquires event.question event.answer = some opened := by
          simpa [Custody.acquired] using brought
        have new := fresh.1 opened brought
        exact absurd (List.mem_map.mpr ⟨entry, held, same⟩) new

/-- A client that has opened `/a`, and has two WRITEs of one byte in flight. -/
def writingSession : Session where
  phase := .serving
  handles := AList.insert (sharedHandle 1) (rootHandle 0x61 0) ∅
  flights := [sharedFlight 1 0x61 0, sharedFlight 1 0x61 0]

theorem Session.Run.writing
    : ∃ trace,
        Session.Run sharedServer Session.initial trace writingSession
        ∧ ((fileCustody.acquired (effects trace)).map Prod.snd).Nodup := by
  have opened := (Session.Run.negotiating sharedServer).trans
    (.dispatching fxpOpen (openShared 0x61) rfl rfl rfl
      (Interaction.interpret_runs counting 0 _))
  have writing := (opened.trans (.starting fxpWrite (writeShared 1) rfl rfl)).trans
    (.starting fxpWrite (writeShared 1) rfl rfl)
  exact ⟨_, writing, by decide⟩

/-- Two WRITEs of the same byte through one handle conflict. -/
theorem same_object_conflicts_writing
    : ∃ sys : Unit → Member,
        SessionsRun sharedServer Fresh sys
        ∧ (sys ()).session.flights = [sharedFlight 1 0x61 0, sharedFlight 1 0x61 0]
        ∧ (sharedFlight 1 0x61 0).span.conflicts (sharedFlight 1 0x61 0).span = true := by
  obtain ⟨trace, run, apart⟩ := Session.Run.writing
  let member : Member :=
    { session := writingSession, held := fileCustody.monitor.after [] (effects trace) }
  have sessions : SessionsRun sharedServer Fresh
      (Function.update (fun _ : Unit => .initial) () member) :=
    .extend .start run rfl (Custody.legal_of_nodup apart)
  have flying : sharedFlight 1 0x61 0
      ∈ (Function.update (fun _ : Unit => Member.initial) () member ()).session.flights :=
    List.mem_cons_self ..
  have through : (sharedFlight 1 0x61 0).Through sharedServer
      (Function.update (fun _ : Unit => Member.initial) () member ()).session.handles
      (rootHandle 0x61 0) 0 1 true :=
    .write (m := { id := 1, handle := sharedHandle 1, offset := 0, data := [7] }) rfl rfl rfl
  refine ⟨_, sessions, rfl, ?_⟩
  exact (same_object_conflicts sessions.aligned flying flying through through rfl rfl rfl
    (by decide) rfl).2

end SftpServer.Sftp
