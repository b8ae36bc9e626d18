import SftpServer.Concurrency.Jobs
import SftpServer.Correctness.CriticalSections
import SftpServer.Correctness.SessionSafety

/-! The lock each driver call is made under. A handler takes the filesystem lock itself, in
the mode its calls need, and gives it back before it replies. What is not under the lock is
the end of a session: `closeAll` closes the driver's files without it.
-/

namespace SftpServer.Sftp

open SftpServer.Foundations
open SftpServer.Wire

/-- How the filesystem lock is held: shared for positional I/O, for calls by path that change
nothing, or exclusively.
-/
inductive LockMode where
  | io
  | path
  | exclusive
  deriving DecidableEq, Repr

/-- The mode an operation takes or gives back. -/
def LockOp.mode : LockOp → LockMode
  | .lock | .unlock => .exclusive
  | .lockPath | .unlockPath => .path
  | .lockIo | .unlockIo => .io

def LockOp.acquires : LockOp → Bool
  | .lock | .lockPath | .lockIo => true
  | .unlock | .unlockPath | .unlockIo => false

/-- The driver contract: the mode a call is made under. -/
def DriverCall.mode : DriverCall → LockMode
  | .fileReadAt _ _ _ | .fileWriteAt _ _ _ => .io
  | .stat _ | .listDir _ | .readFile _ | .readLink _ => .path
  | .writeFile _ _ _ | .mkDir _ _ | .deleteFile _ | .deleteDir _ | .rename _ _
  | .symlink _ _ | .truncate _ _ | .chmod _ _ | .chown _ _ _ | .chtimes _ _ _
  | .openFile _ | .fileSize _ | .fileTruncate _ _ | .fileSync _ | .fileClose _
  | .copyRange _ _ _ _ _ => .exclusive

/-- What is held is at least what is needed; nothing but itself is above a shared mode,
except the exclusive one.
-/
def LockMode.CoveredBy (needed : LockMode) (held : Option LockMode) : Prop :=
  held = some .exclusive ∨ held = some needed

instance (needed : LockMode) (held : Option LockMode) : Decidable (needed.CoveredBy held) :=
  inferInstanceAs (Decidable (_ ∨ _))

/-- Watches one goroutine and the lock it holds: driver calls are covered, and the lock is
taken when it is not held and given back as it was taken.
-/
def discipline : Monitor Effect.Answer (Option LockMode) where
  legal _ _ _ := True
  allowed held effect :=
    match effect with
    | .driver call => call.mode.CoveredBy held
    | .lock op => held = if op.acquires then none else some op.mode
    | .randRead => True
  next held effect _ :=
    match effect with
    | .lock op => if op.acquires then some op.mode else none
    | .driver _ | .randRead => held

/-- From what is held, the program keeps the discipline, and it holds nothing in the end. -/
def DisciplinedFrom {α : Type} (held : Option LockMode) (program : Prog α) : Prop :=
  discipline.wp program (fun later _ => later = none) held

def Disciplined {α : Type} (program : Prog α) : Prop := DisciplinedFrom none program

/-- What may be asked while the lock is held in one mode. -/
def Under (mode : LockMode) : Effect → Prop
  | .driver call => call.mode.CoveredBy (some mode)
  | .lock _ => False
  | .randRead => True

theorem under_exclusive (call : DriverCall) : Under .exclusive (.driver call) := .inl rfl

theorem exclusive_call (call : DriverCall)
    : Interaction.Asks (Under .exclusive) (fun _ => True)
        (.ask (.driver call) .ret : Prog call.Answer) :=
  ⟨under_exclusive call, fun _ => trivial⟩

/-- A body under the lock. -/
theorem disciplined_withLock {α : Type} {body : Prog α} {acquire release : LockOp}
    (takes : acquire.acquires = true) (gives : release.acquires = false)
    (same : release.mode = acquire.mode) (asks : body.Asks (Under acquire.mode) fun _ => True)
    : Disciplined (withLock acquire release body) := by
  refine ⟨by simp [discipline, takes], fun _ _ => ?_⟩
  have held : discipline.next none (.lock acquire) () = some acquire.mode := by
    simp [discipline, takes]
  rw [held, Monitor.wp_bind]
  have idle : ∀ effect, Under acquire.mode effect
      → discipline.allowed (some acquire.mode) effect
        ∧ ∀ answer, discipline.next (some acquire.mode) effect answer = some acquire.mode := by
    intro effect under
    cases effect with
    | driver call => exact ⟨under, fun _ => rfl⟩
    | lock op => exact absurd under not_false
    | randRead => exact ⟨trivial, fun _ => rfl⟩
  refine Monitor.wp_mono (Monitor.wp_of_asks asks idle) fun later value both => ?_
  obtain ⟨rfl, _⟩ := both
  refine ⟨by simp [discipline, gives, same], fun _ _ => ?_⟩
  simp [discipline, gives, Monitor.wp]

theorem disciplined_locked {α : Type} {body : Prog α}
    (asks : body.Asks (Under .exclusive) fun _ => True)
    : Disciplined (locked body) :=
  disciplined_withLock rfl rfl rfl asks

theorem disciplined_rlocked {α : Type} {body : Prog α}
    (asks : body.Asks (Under .path) fun _ => True)
    : Disciplined (rlocked body) :=
  disciplined_withLock rfl rfl rfl asks

theorem disciplined_lockedIo {α : Type} {body : Prog α}
    (asks : body.Asks (Under .io) fun _ => True)
    : Disciplined (lockedIo body) :=
  disciplined_withLock rfl rfl rfl asks

theorem disciplined_ret {α : Type} (value : α) : Disciplined (.ret value) := rfl

-----------------------------------------------------------------------------------------
-- Handlers
-----------------------------------------------------------------------------------------

section Handlers

variable {srv : Server} {t : Handles}

theorem sharedCalls_under : SharedCalls (Under .path) where
  stat _ := .inr rfl
  listDir _ := .inr rfl
  readLink _ := .inr rfl
  randRead := trivial

theorem exclusiveCalls_under : ExclusiveCalls (Under .exclusive) where
  unplaced call _ := under_exclusive call
  truncate _ _ _ := under_exclusive _
  randRead := trivial

theorem OneSection.disciplined {α : Type} {program : Prog α}
    (one : OneSection (Under .path) (Under .exclusive) program)
    : Disciplined program := by
  cases one with
  | reply value => exact disciplined_ret value
  | shared asks => exact disciplined_rlocked asks
  | exclusive asks => exact disciplined_locked asks

theorem growTo_under (dst : File) (size stop : Int64)
    : (growTo dst size stop).Asks (Under .exclusive) fun _ => True := by
  unfold growTo
  split
  · exact exclusive_call _
  · trivial

theorem copyLocked_under (id : UInt32) (src dst : File) (m : CopyRequest)
    : (copyLocked id src dst m).Asks (Under .exclusive) fun _ => True := by
  refine .call (under_exclusive _) fun size => .call (under_exclusive _) fun targetSize => ?_
  refine (growTo_under dst _ _).seq fun grown => ?_
  rcases grown with _ | err
  · exact statusOf_calls (exclusive_call _)
  · trivial

theorem copyData_disciplined (id : UInt32) (data : Bytes)
    : Disciplined (copyData srv t id data) := by
  have outcome := copyData_outcome srv t id data
  generalize copyData srv t id data = program at outcome
  cases outcome with
  | refused => exact disciplined_ret _
  | served => exact disciplined_locked (copyLocked_under id _ _ _)

theorem opExtended_disciplined (m : ExtendedRequest) : Disciplined (opExtended srv t m) := by
  unfold opExtended
  split
  · exact disciplined_ret _
  split
  · exact copyData_disciplined m.id m.data
  · exact disciplined_ret _

theorem Disciplined.keeping {op : Prog Message} (disciplined : Disciplined op)
    : Disciplined (keeping t op) := by
  rw [Disciplined, DisciplinedFrom, Sftp.keeping, Monitor.wp_bind]
  exact disciplined

/-- Every request that runs alone keeps the discipline. -/
theorem dispatch_disciplined (typ : UInt8) (payload : Bytes)
    : Disciplined (dispatch srv t typ payload) := by
  rcases dispatch_section sharedCalls_under exclusiveCalls_under srv t typ payload
    with one | ⟨m, extended⟩
  · exact one.disciplined
  · rw [extended]
    exact (opExtended_disciplined m).keeping

/-- So does every READ and WRITE. -/
theorem job_disciplined {typ : UInt8} {payload : Bytes} {job : Job}
    (prepared : prepare srv t typ payload = (some job, none))
    : Disciplined job.run := by
  have preparation := prepare_preparation srv t typ payload
  rw [prepared] at preparation
  cases preparation with
  | readsAt => exact disciplined_lockedIo (readAt_calls _ fun _ => .inr rfl)
  | readsWhole => exact disciplined_rlocked (readWhole_calls _ _ _ (.inr rfl))
  | writesAt => exact disciplined_lockedIo (statusOf_calls ⟨.inr rfl, fun _ => trivial⟩)
  | rewrites => exact disciplined_locked (writeSplice_calls exclusiveCalls_under _ _ _ _)

end Handlers

-----------------------------------------------------------------------------------------
-- Goroutines
-----------------------------------------------------------------------------------------

/-- What the goroutines of a session hold: the one that reads packets and answers those that
run alone, and one for each request in flight, in the order of the flights.
-/
structure Locks where
  reading : Option LockMode := none
  flying : List (Option LockMode) := []

/-- A step of a session, with the lock that the goroutine which takes it holds before it. -/
inductive LockedStep (srv : Server)
    : Session × Locks → Option LockMode → List Observation → Session × Locks → Prop where
  /-- The reading goroutine takes a step beside the requests in flight. -/
  | reading {s later : Session} {locks : Locks} {trace : List Observation}
    (step : Session.Step srv s trace later) (kept : later.flights = s.flights)
    : LockedStep srv (s, locks) locks.reading trace
        (later, { locks with reading := discipline.after locks.reading (effects trace) })
  /-- The reading goroutine starts one more. -/
  | started {s : Session} {locks : Locks} {typ : UInt8} {payload : Bytes} {job : Job}
    (phase : s.phase = .serving)
    (prepared : prepare srv s.handles typ payload = (some job, none))
    : LockedStep srv (s, locks) locks.reading [.received typ payload]
        ({
          s with
          flights := s.flights ++ [{ typ, payload, span := job.span, rest := job.run }]
        }, { locks with flying := locks.flying ++ [none] })
  /-- A request in flight has an effect. -/
  | flew {s : Session} {reading : Option LockMode} {before after : List Flight}
    {flight : Flight} {early late : List (Option LockMode)} {held : Option LockMode}
    {effect : Effect} {next : effect.Answer → Prog Message} (answer : effect.Answer)
    (inFlight : s.flights = before ++ flight :: after) (place : early.length = before.length)
    (asks : flight.rest = .ask effect next)
    : LockedStep srv (s, ⟨reading, early ++ held :: late⟩) held [.event ⟨effect, answer⟩]
        ({ s with flights := before ++ { flight with rest := next answer } :: after },
          ⟨reading, early ++ discipline.next held effect answer :: late⟩)
  /-- A request in flight is answered, and its goroutine ends. -/
  | landed {s : Session} {reading : Option LockMode} {before after : List Flight}
    {flight : Flight} {early late : List (Option LockMode)} {held : Option LockMode}
    {reply : Message} (inFlight : s.flights = before ++ flight :: after)
    (place : early.length = before.length) (returns : flight.rest = .ret reply)
    : LockedStep srv (s, ⟨reading, early ++ held :: late⟩) held
        [.replied flight.typ flight.payload reply]
        ({ s with flights := before ++ after }, ⟨reading, early ++ late⟩)

/-- Whatever is held, it is a step of the session. -/
theorem LockedStep.session {srv : Server} {now later : Session × Locks}
    {held : Option LockMode} {trace : List Observation}
    (step : LockedStep srv now held trace later)
    : Session.Step srv now.1 trace later.1 := by
  cases step with
  | reading step kept => exact step
  | started phase prepared => exact .started phase prepared
  | flew answer inFlight place asks => exact .flew answer inFlight asks
  | landed inFlight place returns => exact .landed inFlight returns

/-- Every step of a session is taken by one of its goroutines. -/
theorem Session.Step.locked {srv : Server} {s later : Session} {trace : List Observation}
    (step : Session.Step srv s trace later) {locks : Locks}
    (each : locks.flying.length = s.flights.length)
    : ∃ held after,
        LockedStep srv (s, locks) held trace (later, after)
        ∧ after.flying.length = later.flights.length := by
  obtain ⟨reading, flying⟩ := locks
  have split {before after : List Flight} {flight : Flight}
      (inFlight : s.flights = before ++ flight :: after)
      : ∃ early held late,
          flying = early ++ held :: late
          ∧ early.length = before.length
          ∧ late.length = after.length := by
    have each : flying.length = before.length + (after.length + 1) := by
      rw [each, inFlight, List.length_append, List.length_cons]
    refine ⟨flying.take before.length, flying[before.length], flying.drop (before.length + 1),
      ?_, ?_, ?_⟩
    · rw [List.getElem_cons_drop, List.take_append_drop]
    · rw [List.length_take]
      omega
    · rw [List.length_drop]
      omega
  cases step with
  | started phase prepared =>
      exact ⟨_, _, .started phase prepared, by simp [each]⟩
  | flew answer inFlight asks =>
      obtain ⟨early, held, late, rfl, place, rest⟩ := split inFlight
      exact ⟨held, _, .flew answer inFlight place asks, by simp [place, rest]⟩
  | landed inFlight returns =>
      obtain ⟨early, held, late, rfl, place, rest⟩ := split inFlight
      exact ⟨held, _, .landed inFlight place returns, by simp [place, rest]⟩
  | negotiated phase accepted => exact ⟨_, _, .reading (.negotiated phase accepted) rfl, each⟩
  | refused phase => exact ⟨_, _, .reading (.refused phase) rfl, each⟩
  | early phase alone prepared => exact ⟨_, _, .reading (.early phase alone prepared) rfl, each⟩
  | dispatched phase alone prepared =>
      exact ⟨_, _, .reading (.dispatched phase alone prepared) rfl, each⟩
  | advanced answer phase => exact ⟨_, _, .reading (.advanced answer phase) rfl, each⟩
  | answered phase => exact ⟨_, _, .reading (.answered phase) rfl, each⟩
  | hungUp phase => exact ⟨_, _, .reading (.hungUp phase) rfl, each⟩
  | drained phase alone all => exact ⟨_, _, .reading (.drained phase alone all) rfl, each⟩
  | closed answer phase => exact ⟨_, _, .reading (.closed answer phase) rfl, each⟩
  | returned phase => exact ⟨_, _, .reading (.returned phase) rfl, each⟩

def Phase.isClosing : Phase → Bool
  | .closing _ => true
  | .negotiating | .serving | .answering _ _ _ | .draining | .returned => false

/-- What the end of a session asks: that files be closed, and never for the lock. -/
def Closes (effect : Effect) : Prop := ∃ file, effect = .driver (.fileClose file)

/-- What is left of the reading goroutine's work is disciplined from what it holds, or it is
the end of the session, which holds nothing.
-/
def Phase.Guarded (held : Option LockMode) : Phase → Prop
  | .answering _ _ rest => DisciplinedFrom held rest
  | .closing rest => held = none ∧ rest.Asks Closes fun _ => True
  | .negotiating | .serving | .draining | .returned => held = none

/-- What is left of the work of every goroutine is disciplined from what it holds. -/
structure Guarded (now : Session × Locks) : Prop where
  reading : now.1.phase.Guarded now.2.reading
  flying : List.Forall₂ (fun flight held => DisciplinedFrom held flight.rest)
    now.1.flights now.2.flying

/-- Driver calls of a session are covered unless it is closing its handles, and then not. -/
def Covered (s : Session) (held : Option LockMode) (events : List Event) : Prop :=
  ∀ event ∈ events, ∀ call, event.question = .driver call
    → (call.mode.CoveredBy held ↔ s.phase.isClosing = false)

theorem covered_nil (s : Session) (held : Option LockMode) : Covered s held [] :=
  fun _ member => (List.not_mem_nil member).elim

/-- An effect of a goroutine that keeps the discipline. -/
theorem covered_of_allowed {s : Session} {held : Option LockMode} {effect : Effect}
    (answer : effect.Answer) (allowed : discipline.allowed held effect)
    (going : s.phase.isClosing = false)
    : Covered s held [⟨effect, answer⟩] := by
  intro event member call asked
  rw [List.mem_singleton] at member
  rw [member] at asked
  dsimp only at asked
  subst asked
  exact iff_of_true allowed going

/-- A request in flight moves on: it is not what it was. -/
theorem ask_ne_branch {α : Type} {effect : Effect} {next : effect.Answer → Prog α}
    (answer : effect.Answer)
    : next answer ≠ .ask effect next := by
  intro same
  generalize whole : (.ask effect next : Prog α) = program at same
  induction program generalizing effect next with
  | ret value => cases whole
  | ask effect' next' ih =>
      cases whole
      exact ih answer answer same.symm rfl

/-- What the flights before, at and after a place hold. -/
theorem Guarded.split {s : Session} {reading held : Option LockMode}
    {before after : List Flight} {flight : Flight} {early late : List (Option LockMode)}
    (guarded : Guarded (s, ⟨reading, early ++ held :: late⟩))
    (inFlight : s.flights = before ++ flight :: after) (place : early.length = before.length)
    : List.Forall₂ (fun flight held => DisciplinedFrom held flight.rest) before early
      ∧ DisciplinedFrom held flight.rest
      ∧ List.Forall₂ (fun flight held => DisciplinedFrom held flight.rest) after late := by
  have flying := guarded.flying
  dsimp only at flying
  rw [inFlight] at flying
  have first := List.forall₂_take_append _ early (held :: late) flying
  have second := List.forall₂_drop_append _ early (held :: late) flying
  rw [List.take_left' place.symm] at first
  rw [List.drop_left' place.symm] at second
  exact ⟨first, List.forall₂_cons.mp second⟩

/-- Nothing is in flight any more when a session closes its handles. -/
theorem Phase.Safe.alone_closing {srv : Server} {paths : Bytes → Prop} {flights : List Flight}
    {phase : Phase} (safe : phase.Safe srv paths flights)
    : phase.isClosing = true → flights = [] := by
  intro closing
  cases phase with
  | closing rest => exact safe.1
  | _ => cases closing

/-- A step keeps the discipline of every goroutine, and its driver calls are covered unless
the session is closing its handles.
-/
theorem LockedStep.guarded {srv : Server} {now later : Session × Locks}
    {held : Option LockMode} {trace : List Observation}
    (step : LockedStep srv now held trace later) (guarded : Guarded now)
    (alone : now.1.phase.isClosing = true → now.1.flights = [])
    : Guarded later ∧ Covered now.1 held (effects trace) := by
  have reading := guarded.reading
  cases step with
  | started phase prepared =>
      refine ⟨⟨reading, ?_⟩, covered_nil _ _⟩
      exact List.rel_append guarded.flying (.cons (job_disciplined prepared) .nil)
  | flew answer inFlight place asks =>
      obtain ⟨first, going, last⟩ := guarded.split inFlight place
      rw [asks] at going
      refine ⟨⟨reading, ?_⟩, covered_of_allowed answer going.1 ?_⟩
      · exact List.rel_append first (.cons (going.2 answer trivial) last)
      · by_contra closing
        have none_left := alone (by simpa using closing)
        simp [inFlight] at none_left
  | landed inFlight place returns =>
      obtain ⟨first, _, last⟩ := guarded.split inFlight place
      exact ⟨⟨reading, List.rel_append first last⟩, covered_nil _ _⟩
  | @reading s later locks trace step kept =>
      cases step with
      | started phase prepared => simp at kept
      | @flew before after flight effect next answer inFlight asks =>
          rw [inFlight, List.append_cancel_left_eq, List.cons.injEq] at kept
          have same := congrArg Flight.rest kept.1
          rw [asks] at same
          exact absurd same (ask_ne_branch answer)
      | landed inFlight returns => simp [inFlight] at kept
      | early phase alone prepared => exact ⟨guarded, covered_nil _ _⟩
      | negotiated phase accepted =>
          simp only [phase, Phase.Guarded] at reading
          exact ⟨⟨reading, guarded.flying⟩, covered_nil _ _⟩
      | refused phase =>
          simp only [phase, Phase.Guarded] at reading
          exact ⟨⟨reading, guarded.flying⟩, covered_nil _ _⟩
      | @dispatched typ payload phase alone prepared =>
          simp only [phase, Phase.Guarded] at reading
          refine ⟨⟨?_, guarded.flying⟩, covered_nil _ _⟩
          simp only [effects, Phase.Guarded, reading]
          exact dispatch_disciplined typ payload
      | advanced answer phase =>
          simp only [phase, Phase.Guarded] at reading
          refine ⟨⟨reading.2 answer trivial, guarded.flying⟩, ?_⟩
          exact covered_of_allowed answer reading.1 (by simp [phase, Phase.isClosing])
      | answered phase =>
          simp only [phase, Phase.Guarded] at reading
          exact ⟨⟨reading, guarded.flying⟩, covered_nil _ _⟩
      | hungUp phase =>
          simp only [phase, Phase.Guarded] at reading
          exact ⟨⟨reading, guarded.flying⟩, covered_nil _ _⟩
      | @drained order phase alone all =>
          simp only [phase, Phase.Guarded] at reading
          have closes := closeAll_asks (P := Closes) order fun _ _ file _ => ⟨file, rfl⟩
          exact ⟨⟨⟨reading, closes⟩, guarded.flying⟩, covered_nil _ _⟩
      | @closed effect next answer phase =>
          simp only [phase, Phase.Guarded] at reading
          -- It asks for a `Close` and for nothing else, and holds nothing then.
          obtain ⟨nothing, ⟨file, rfl⟩, rest⟩ := reading
          refine ⟨⟨⟨nothing, rest answer⟩, guarded.flying⟩, ?_⟩
          intro event member call asked
          rw [List.mem_singleton.mp member] at asked
          cases asked
          simp [nothing, phase, LockMode.CoveredBy, Phase.isClosing]
      | returned phase =>
          simp only [phase, Phase.Guarded] at reading
          exact ⟨⟨reading.1, guarded.flying⟩, covered_nil _ _⟩

-----------------------------------------------------------------------------------------
-- Sessions side by side
-----------------------------------------------------------------------------------------

/-- The runs of any number of sessions of one server, one step of one goroutine at a time. -/
inductive LockedRun {ι : Type} [DecidableEq ι] (srv : Server) : (ι → Session × Locks) → Prop where
  | start : LockedRun srv fun _ => (.initial, {})
  | step {sys : ι → Session × Locks} {i : ι} {held : Option LockMode}
    {trace : List Observation} {later : Session × Locks} (run : LockedRun srv sys)
    (step : LockedStep srv (sys i) held trace later)
    : LockedRun srv (Function.update sys i later)

section Sessions

variable {ι : Type} [DecidableEq ι] {srv : Server} {sys : ι → Session × Locks}

/-- In every run all goroutines are disciplined, by induction on the steps; that each session
is safe is carried along.
-/
theorem LockedRun.guarded (run : LockedRun srv sys)
    : ∀ i, Guarded (sys i) ∧ (sys i).1.Safe srv fun _ => True := by
  induction run with
  | start => exact fun _ => ⟨⟨rfl, .nil⟩, Session.initial_safe⟩
  | @step sys i held trace later _ step ih =>
      intro j
      by_cases same : j = i
      · subst same
        rw [Function.update_self]
        obtain ⟨guarded, safe⟩ := ih j
        refine ⟨(step.guarded guarded safe.phase.alone_closing).1, ?_⟩
        exact (step.session.safe (fun _ _ => trivial) safe (receives_any srv trace)).1
      · rw [Function.update_of_ne same]
        exact ih j

/-- A run of one session is a run of the sessions, by induction on its steps. -/
theorem LockedRun.extend (run : LockedRun srv sys) {i : ι} {s last : Session}
    {trace : List Observation} (more : Session.Run srv s trace last) (start : (sys i).1 = s)
    : ∃ locks, LockedRun srv (Function.update sys i (last, locks)) := by
  induction more with
  | refl =>
      refine ⟨(sys i).2, ?_⟩
      rw [← start, Function.update_eq_self]
      exact run
  | @step middle last early late _ step ih =>
      obtain ⟨locks, earlier⟩ := ih
      have each := (earlier.guarded i).1.flying.length_eq
      rw [Function.update_self] at each
      obtain ⟨held, after, locked, _⟩ := step.locked each.symm
      refine ⟨after, ?_⟩
      rw [← Function.update_idem]
      exact earlier.step (by rw [Function.update_self]; exact locked)

/-- In every run of any number of sessions, a driver call is made with the lock held as the
driver contract says, by the goroutine that makes it, exactly if the session is not closing
its handles at its end.
-/
theorem driver_call_locked_iff (run : LockedRun srv sys) {i : ι} {held : Option LockMode}
    {trace : List Observation} {later : Session × Locks}
    (step : LockedStep srv (sys i) held trace later) {event : Event}
    (made : event ∈ effects trace) {call : DriverCall} (asked : event.question = .driver call)
    : call.mode.CoveredBy held ↔ (sys i).1.phase.isClosing = false := by
  obtain ⟨guarded, safe⟩ := run.guarded i
  exact (step.guarded guarded safe.phase.alone_closing).2 event made call asked

end Sessions

/-- A session that hangs up with a file open: it is about to close the file. -/
theorem Session.Run.closingFile
    : ∃ calls s next,
        Session.Run readOnlyServer Session.initial calls s
        ∧ s.phase = .closing (.ask (.driver (.fileClose ⟨0, true⟩)) next) := by
  have opened := (Session.Run.negotiating readOnlyServer).trans
    (.dispatching fxpOpen openForReading rfl rfl rfl
      (Interaction.interpret_runs (fun (_ : Unit) _ => (default, ())) () _))
  have hungUp := opened.trans (.single (.hungUp rfl))
  have drained := hungUp.trans (.single (.drained rfl rfl .rfl))
  exact ⟨_, _, _, drained, rfl⟩

/-- The file is closed by a goroutine that holds no lock. -/
theorem file_closed_without_lock
    : ∃ (sys : Unit → Session × Locks) (held : Option LockMode) (later : Session × Locks),
        LockedRun readOnlyServer sys
        ∧ LockedStep readOnlyServer (sys ()) held
          [.event ⟨.driver (.fileClose ⟨0, true⟩), none⟩] later
        ∧ ¬ (DriverCall.fileClose ⟨0, true⟩).mode.CoveredBy held := by
  obtain ⟨calls, s, next, more, closing⟩ := Session.Run.closingFile
  obtain ⟨locks, run⟩ := (LockedRun.start (ι := Unit)).extend (i := ()) more rfl
  have reading := (run.guarded ()).1.reading
  simp only [Function.update_self, closing, Phase.Guarded] at reading
  have closed : Session.Step readOnlyServer s
      [.event ⟨.driver (.fileClose ⟨0, true⟩), none⟩] { s with phase := .closing (next none) } :=
    .closed none closing
  refine ⟨_, locks.reading, _, run, .reading closed rfl, ?_⟩
  simp [reading.1, LockMode.CoveredBy]

/-- A session that has taken the lock for an OPEN: it is about to call `Stat`. -/
theorem Session.Run.stating
    : ∃ calls s next,
        Session.Run readOnlyServer Session.initial calls s
        ∧ s.phase
          = .answering fxpOpen openForReading (.ask (.driver (.stat (text "/a"))) next) := by
  have asked := (Session.Run.negotiating readOnlyServer).trans
    (.single (@Session.Step.dispatched _ _ fxpOpen openForReading rfl rfl rfl))
  have locked := asked.trans (.single (.advanced () rfl))
  exact ⟨_, _, _, locked, rfl⟩

theorem driver_call_locked_stating
    : ∃ (sys : Unit → Session × Locks) (held : Option LockMode) (later : Session × Locks),
        LockedRun readOnlyServer sys
        ∧ LockedStep readOnlyServer (sys ()) held
          [.event ⟨.driver (.stat (text "/a")), .ok none⟩] later
        ∧ (DriverCall.stat (text "/a")).mode.CoveredBy held := by
  obtain ⟨calls, s, next, more, phase⟩ := Session.Run.stating
  obtain ⟨locks, run⟩ := (LockedRun.start (ι := Unit)).extend (i := ()) more rfl
  let answer : Except DriverError (Option Stat) := .ok none
  have stated : Session.Step readOnlyServer s [.event ⟨.driver (.stat (text "/a")), answer⟩]
      { s with phase := .answering fxpOpen openForReading (next answer) } :=
    .advanced answer phase
  have step : LockedStep readOnlyServer (s, locks) locks.reading _ _ := .reading stated rfl
  have going : s.phase.isClosing = false := by rw [phase]; rfl
  have covered := driver_call_locked_iff (i := ()) run step (List.mem_singleton.mpr rfl) rfl
  exact ⟨_, _, _, run, step, covered.mpr going⟩

end SftpServer.Sftp
