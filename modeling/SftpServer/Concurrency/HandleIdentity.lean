import SftpServer.Concurrency.SharedObjects
import SftpServer.Correctness.Grants

/-! Which file a handle is a handle of. READ and WRITE go through the file that OPEN opened,
and FSTAT and FSETSTAT go back to the path, which may have come to name another file.
-/

namespace SftpServer.Sftp

open SftpServer.Foundations
open SftpServer.Wire

-----------------------------------------------------------------------------------------
-- A driver that keeps file objects
-----------------------------------------------------------------------------------------

/-- A driver of files that can be written in place. What a path names depends on its state;
an open file stays the object that its path named when it was opened.
-/
structure ObjectDriver (State Object : Type) where
  names : State → Bytes → Option Object
  object : File → Object
  /-- The driver may answer the call so and go on in this state. -/
  answers : State → (call : DriverCall) → call.Answer → State → Prop
  opens : ∀ {s later : State} {path : Bytes} {file : File},
    answers s (.openFile path) (.ok (some file)) later
      → names s path = some (object file) ∧ file.isWritable = true

namespace ObjectDriver

variable {State Object : Type} (driver : ObjectDriver State Object)

/-- Nothing but a call on the driver changes its state. -/
def Moves : State → List Event → State → Prop
  | s, [], last => last = s
  | s, ⟨.driver call, answer⟩ :: rest, last =>
      ∃ middle, driver.answers s call answer middle ∧ Moves middle rest last
  | s, ⟨.lock _, _⟩ :: rest, last => Moves s rest last
  | s, ⟨.randRead, _⟩ :: rest, last => Moves s rest last

/-- What a call reads or changes: the objects of its files, and what its paths name. -/
def touched (s : State) (call : DriverCall) : List (Option Object) :=
  call.files.map (fun file => some (driver.object file)) ++ call.paths.map (driver.names s)

theorem touched_ne_nil (s : State) (call : DriverCall) : driver.touched s call ≠ [] := by
  cases call <;> simp [touched, DriverCall.files, DriverCall.paths]

theorem moves_append {s last : State} {early late : List Event}
    (moves : driver.Moves s (early ++ late) last)
    : ∃ middle, driver.Moves s early middle ∧ driver.Moves middle late last := by
  induction early generalizing s with
  | nil => exact ⟨s, rfl, moves⟩
  | cons event rest ih =>
      obtain ⟨effect, answer⟩ := event
      cases effect with
      | driver call =>
          obtain ⟨next, answered, moves⟩ := moves
          obtain ⟨middle, first, second⟩ := ih moves
          exact ⟨middle, ⟨next, answered, first⟩, second⟩
      | lock op => exact ih moves
      | randRead => exact ih moves

/-- What an event opens is what its path named. -/
theorem opens_of_moves {s last : State} {event : Event} {path : Bytes} {file : File}
    (moves : driver.Moves s [event] last)
    (opened : fileCustody.acquires event.question event.answer = some (path, file))
    : driver.names s path = some (driver.object file) ∧ file.isWritable = true := by
  obtain ⟨effect, answer⟩ := event
  simp only [fileCustody] at opened
  split at opened
  · rename_i called answered
    cases Option.some.inj opened
    obtain ⟨middle, answers, _⟩ := moves
    exact driver.opens answers
  · cases opened

end ObjectDriver

/-- Sessions on one driver, with the states it has been in and what was seen of each. -/
structure ObjectSystem (ι State : Type) where
  state : State
  past : List State := []
  sessions : ι → Session := fun _ => .initial
  traces : ι → List Observation := fun _ => []

namespace ObjectSystem

variable {ι State Object : Type} [DecidableEq ι]

/-- One session has taken a step. -/
def after (sys : ObjectSystem ι State) (i : ι) (trace : List Observation) (later : Session)
    (state : State) : ObjectSystem ι State where
  state
  past := sys.state :: sys.past
  sessions := Function.update sys.sessions i later
  traces := Function.update sys.traces i (sys.traces i ++ trace)

/-- The runs of any number of sessions, one step of one of them at a time. -/
inductive Run (srv : Server) (driver : ObjectDriver State Object)
    : ObjectSystem ι State → Prop where
  | start (state : State) : Run srv driver { state }
  | step {sys : ObjectSystem ι State} {i : ι} {trace : List Observation} {later : Session}
    {state : State} (run : Run srv driver sys)
    (step : Session.Step srv (sys.sessions i) trace later)
    (moves : driver.Moves sys.state (effects trace) state)
    : Run srv driver (sys.after i trace later state)

variable {srv : Server} {driver : ObjectDriver State Object} {sys : ObjectSystem ι State}

/-- Each session by itself, by induction on the steps. -/
theorem Run.session (run : Run srv driver sys) (i : ι)
    : Session.Run srv Session.initial (sys.traces i) (sys.sessions i) := by
  induction run with
  | start state => exact .refl _
  | @step sys j trace later state _ step moves ih =>
      simp only [after]
      by_cases same : i = j
      · subst same
        rw [Function.update_self, Function.update_self]
        exact ih.step step
      · rw [Function.update_of_ne same, Function.update_of_ne same]
        exact ih

/-- A file that `OpenFile` returned is what its path named at that time, by induction on the
steps.
-/
theorem Run.opened (run : Run srv driver sys) {i : ι} {path : Bytes} {file : File}
    (opened : (path, file) ∈ fileCustody.acquired (effects (sys.traces i)))
    : file.isWritable = true
      ∧ ∃ s ∈ sys.past, driver.names s path = some (driver.object file) := by
  induction run with
  | start state => cases opened
  | @step sys j trace later state _ step moves ih =>
      have before (old : (path, file) ∈ fileCustody.acquired (effects (sys.traces i)))
          : file.isWritable = true
            ∧ ∃ s ∈ sys.state :: sys.past, driver.names s path = some (driver.object file) := by
        obtain ⟨writable, s, member, named⟩ := ih old
        exact ⟨writable, s, List.mem_cons_of_mem _ member, named⟩
      simp only [after] at opened ⊢
      by_cases same : i = j
      swap
      · rw [Function.update_of_ne same] at opened
        exact before opened
      subst same
      rw [Function.update_self, effects_append, Custody.acquired_append] at opened
      rcases List.mem_append.mp opened with old | new
      · exact before old
      -- The step has one effect, which the driver answered in the state before it.
      rcases step.effects_few with nothing | ⟨event, one⟩
      · rw [nothing] at new
        cases new
      · rw [one] at moves new
        rw [Custody.acquired_cons] at new
        have brought : fileCustody.acquires event.question event.answer = some (path, file) := by
          simpa [Custody.acquired] using new
        obtain ⟨named, writable⟩ := driver.opens_of_moves moves brought
        exact ⟨writable, sys.state, List.mem_cons_self, named⟩

/-- A run of one session is a run of the system, by induction on its steps. -/
theorem Run.extend {i : ι} {s last : Session} {trace : List Observation} {state : State}
    (run : Run srv driver sys) (more : Session.Run srv s trace last)
    (start : sys.sessions i = s) (moves : driver.Moves sys.state (effects trace) state)
    : ∃ later : ObjectSystem ι State,
        Run srv driver later
        ∧ later.state = state
        ∧ later.sessions i = last
        ∧ later.traces i = sys.traces i ++ trace := by
  induction more generalizing state with
  | refl => exact ⟨sys, run, moves.symm, start, by simp⟩
  | @step middle last early late _ step ih =>
      rw [effects_append] at moves
      obtain ⟨between, first, second⟩ := driver.moves_append moves
      obtain ⟨later, run, rfl, rfl, seen⟩ := ih first
      refine ⟨later.after i late last state, run.step step second, rfl, ?_, ?_⟩
      · simp [after]
      · simp [after, seen]

end ObjectSystem

-----------------------------------------------------------------------------------------
-- Requests through a handle
-----------------------------------------------------------------------------------------

/-- The request reads or changes the file of a handle. -/
inductive ThroughHandle (tok : Bytes) : UInt8 → Bytes → Prop where
  | read {payload : Bytes} {m : ReadRequest} (decodes : decodeRead payload = .ok m)
    (named : m.handle = tok)
    : ThroughHandle tok fxpRead payload
  | write {payload : Bytes} {m : WriteRequest} (decodes : decodeWrite payload = .ok m)
    (named : m.handle = tok)
    : ThroughHandle tok fxpWrite payload
  | fstat {payload : Bytes} {m : HandleRequest}
    (decodes : decodeHandle fxpFstat payload = .ok m) (named : m.handle = tok)
    : ThroughHandle tok fxpFstat payload
  | fsetstat {payload : Bytes} {m : FsetstatRequest} (decodes : decodeFsetstat payload = .ok m)
    (named : m.handle = tok)
    : ThroughHandle tok fxpFsetstat payload

/-- The session is about to make this call for this request. -/
inductive Session.Making (s : Session) (typ : UInt8) (payload : Bytes) (call : DriverCall)
    : Prop where
  | alone {next : call.Answer → Prog (Message × Handles)}
    (phase : s.phase = .answering typ payload (.ask (.driver call) next))
  | flying {flight : Flight} {next : call.Answer → Prog Message} (inFlight : flight ∈ s.flights)
    (kind : flight.typ = typ) (packet : flight.payload = payload)
    (asks : flight.rest = .ask (.driver call) next)

/-- A call that is about to be made is one that the request makes on the table. -/
theorem Session.Working.asked {srv : Server} {past : List Event} {s : Session}
    {typ : UInt8} {payload : Bytes} {call : DriverCall} {P : Effect → Prop}
    (working : s.Working srv past) (making : s.Making typ payload call)
    (asks : (answer srv s.handles typ payload).Asks P fun _ => True)
    : P (.driver call) := by
  cases making with
  | alone phase =>
      obtain ⟨prepared, calls, _, leaves⟩ := working.alone typ payload _ phase
      rw [answer, prepared] at asks
      exact (leaves.asks asks).1
  | flying inFlight kind packet rest =>
      obtain ⟨job, prepared, calls, _, leaves⟩ := working.flights _ inFlight
      rw [kind, packet] at prepared
      rw [answer, prepared] at asks
      dsimp only at asks
      rw [keeping, Interaction.asks_bind] at asks
      rw [rest] at leaves
      exact (leaves.asks asks).1

section Requests

variable {srv : Server} {t : Handles} {payload : Bytes} {h : OpenFile}

theorem keeping_within {P : Effect → Prop} {Q : Message → Prop} {op : Prog Message}
    (asks : op.Asks P Q)
    : (keeping t op).Asks P fun _ => True :=
  (keeping_asks asks).mono (fun _ holds => holds) fun _ _ => trivial

/-- READ reads the file of the handle. -/
theorem answer_read_asks {m : ReadRequest} {file : File}
    (decodes : decodeRead payload = .ok m) (found : t.get m.handle = some h)
    (opened : h.file = some file)
    : (answer srv t fxpRead payload).Asks (Steady srv (fun _ => False) (· = file))
        fun _ => True := by
  rw [answer, prepare_read, decodes]
  simp only [readJob, found, opened]
  split_ifs
  · trivial
  · trivial
  · exact keeping_within (asks_withLock (fun _ => trivial) (readAt_asks m.id m.offset _ rfl))

/-- WRITE writes it. -/
theorem answer_write_asks {m : WriteRequest} {file : File}
    (decodes : decodeWrite payload = .ok m) (found : t.get m.handle = some h)
    (shape : h.WellFormed srv) (opened : h.file = some file)
    : (answer srv t fxpWrite payload).Asks (Steady srv (fun _ => False) (· = file))
        fun _ => True := by
  rw [answer, prepare_write, decodes]
  simp only [writeJob, found]
  split_ifs with directory readOnly unwritable offset
  · trivial
  · trivial
  · trivial
  · trivial
  · have isFile : h.dir = false := by simpa using directory
    have written := shape.written isFile (by simpa using unwritable) (by simp [opened])
    obtain ⟨target, same⟩ := Option.isSome_iff_exists.mp written
    obtain rfl : target = file :=
      Option.some.inj ((shape.writable isFile target same).2.symm.trans opened)
    simp only [same]
    refine keeping_within (asks_withLock (fun _ => trivial) (statusOf_asks m.id (by decide) ?_))
    exact ⟨.use rfl rfl (by simpa using readOnly) (by simp [DriverCall.files]),
      fun _ => trivial⟩

/-- FSTAT asks for the path of the handle, which is cleaned to itself. -/
theorem answer_fstat_asks {m : HandleRequest}
    (decodes : decodeHandle fxpFstat payload = .ok m) (found : t.get m.handle = some h)
    (shape : h.WellFormed srv)
    : (answer srv t fxpFstat payload).Asks (Steady srv (· = h.path) fun _ => False)
        fun _ => True := by
  have dispatched : answer srv t fxpFstat payload
      = decoded t (requestID payload) (decodeHandle fxpFstat payload)
          fun m => keeping t (opFstat srv t m) := rfl
  rw [dispatched, decodes]
  simp only [decoded, opFstat, found]
  refine keeping_within (opStat_resolved _ fun path resolved => ?_)
  exact clean_of_canonical shape.canonical (clean_of_resolve resolved)

/-- FSETSTAT sets the attributes of the path of the handle. -/
theorem answer_fsetstat_asks {m : FsetstatRequest}
    (decodes : decodeFsetstat payload = .ok m) (found : t.get m.handle = some h)
    : (answer srv t fxpFsetstat payload).Asks (Steady srv (· = h.path) fun _ => False)
        fun _ => True := by
  have dispatched : answer srv t fxpFsetstat payload
      = decoded t (requestID payload) (decodeFsetstat payload)
          fun m => keeping t (opFsetstat srv t m) := rfl
  rw [dispatched, decodes]
  simp only [decoded, opFsetstat, found]
  exact keeping_within (opSetstat_asks m.id h.path m.attrs fun _ => rfl)

end Requests

section Objects

variable {State Object : Type} {driver : ObjectDriver State Object} {srv : Server} {s : State}
  {call : DriverCall}

/-- A call on one file touches its object. -/
theorem touched_of_file {file : File}
    (steady : Steady srv (fun _ => False) (· = file) (.driver call))
    : ∀ object ∈ driver.touched s call, object = some (driver.object file) := by
  intro object member
  rcases List.mem_append.mp member with byFile | byPath
  · obtain ⟨other, used, rfl⟩ := List.mem_map.mp byFile
    rw [steady.2.files other used]
  · obtain ⟨path, used, _⟩ := List.mem_map.mp byPath
    exact (steady.2.paths path used).elim

/-- A call on one path touches what it names. -/
theorem touched_of_path {path : Bytes}
    (steady : Steady srv (· = path) (fun _ => False) (.driver call))
    : ∀ object ∈ driver.touched s call, object = driver.names s path := by
  intro object member
  rcases List.mem_append.mp member with byFile | byPath
  · obtain ⟨file, used, _⟩ := List.mem_map.mp byFile
    exact (steady.2.files file used).elim
  · obtain ⟨other, used, rfl⟩ := List.mem_map.mp byPath
    rw [steady.2.paths other used]

/-- So it touches one object if and only if the path names it. -/
theorem touched_of_path_iff {path : Bytes} {object : Object}
    (steady : Steady srv (· = path) (fun _ => False) (.driver call))
    : (∀ touched ∈ driver.touched s call, touched = some object)
      ↔ driver.names s path = some object := by
  constructor
  · intro all
    obtain ⟨touched, member⟩ := List.exists_mem_of_ne_nil _ (driver.touched_ne_nil s call)
    rw [← touched_of_path steady touched member]
    exact all touched member
  · intro named touched member
    rw [touched_of_path steady touched member, named]

end Objects

/-- On a driver that opens files in place: every handle that an OPEN was answered with has the
file that `OpenFile` returned to that OPEN, between its packet and its reply, and a call that any
session makes for a READ, WRITE, FSTAT or FSETSTAT through the handle touches the object of that
file and no other exactly if the request is a READ or a WRITE, or the path of the OPEN names the
object when the call is made.
-/
theorem handle_object_iff {ι State Object : Type} [DecidableEq ι] {srv : Server}
    {driver : ObjectDriver State Object} {sys : ObjectSystem ι State}
    (opener : srv.opener = true) (run : sys.Run srv driver) {i : ι} {tok : Bytes}
    {m : OpenRequest} {h : OpenFile} (granted : grantedBy (sys.traces i) tok = some m)
    (found : (sys.sessions i).handles.get tok = some h) {typ : UInt8} {payload : Bytes}
    {call : DriverCall} (through : ThroughHandle tok typ payload)
    (making : (sys.sessions i).Making typ payload call)
    : ∃ file packet calls,
        h.file = some file
        ∧ GrantedIn (sys.traces i) tok fxpOpen packet calls
        ∧ decodeOpen packet = .ok m
        ∧ resolve m.id m.path = .ok h.path
        ∧ (h.path, file) ∈ fileCustody.acquired calls
        ∧ (∃ s ∈ sys.past, driver.names s h.path = some (driver.object file))
        ∧ ((∀ object ∈ driver.touched sys.state call, object = some (driver.object file))
          ↔ typ = fxpRead ∨ typ = fxpWrite
            ∨ driver.names sys.state h.path = some (driver.object file)) := by
  have session := run.session i
  have working := session.working
  have shape := session.wellFormed.get found
  -- The handle was made by the OPEN that granted it, from what that was answered.
  obtain ⟨packet, calls, grantedIn, decodes, made⟩ : ∃ packet calls,
      GrantedIn (sys.traces i) tok fxpOpen packet calls ∧ decodeOpen packet = .ok m
        ∧ h.MadeBy srv (fileCustody.acquired calls) m := by
    obtain ⟨typ, packet, calls, grantedIn, made⟩ := session.granted tok h found
    obtain ⟨_, ⟨_, ungranted⟩ | ⟨_, _, file⟩⟩ := session.provenance.table tok h found
    · cases granted.symm.trans ungranted
    cases made with
    | opened kind decodes made =>
        subst kind
        cases granted.symm.trans (grantedIn.grantedBy_eq decodes)
        exact ⟨packet, calls, grantedIn, decodes, made⟩
    | listed _ _ isDir => cases isDir.symm.trans file.isFile
  have brought {path : Bytes} {file : File} (acquired : (path, file) ∈ fileCustody.acquired calls)
      : (path, file) ∈ fileCustody.acquired (effects (sys.traces i)) :=
    Custody.acquired_subset grantedIn.subset acquired
  have opens : h.file ≠ none := by
    intro noFile
    rcases made.noFile noFile with cannot | ⟨file, acquired, unwritable⟩
    · rw [opener] at cannot
      cases cannot
    · rw [(run.opened (brought acquired)).1] at unwritable
      cases unwritable
  obtain ⟨file, opened⟩ := Option.ne_none_iff_exists'.mp opens
  have acquired := made.file file opened
  refine ⟨file, packet, calls, opened, grantedIn, decodes, made.path, acquired,
    (run.opened (brought acquired)).2, ?_⟩
  cases through with
  | read decodes named =>
      have asked := working.asked making (answer_read_asks decodes (named ▸ found) opened)
      exact iff_of_true (touched_of_file asked) (.inl rfl)
  | write decodes named =>
      have asked := working.asked making (answer_write_asks decodes (named ▸ found) shape opened)
      exact iff_of_true (touched_of_file asked) (.inr (.inl rfl))
  | fstat decodes named =>
      have asked := working.asked making (answer_fstat_asks decodes (named ▸ found) shape)
      rw [touched_of_path_iff asked]
      simp [fxpFstat, fxpRead, fxpWrite]
  | fsetstat decodes named =>
      have asked := working.asked making (answer_fsetstat_asks decodes (named ▸ found))
      rw [touched_of_path_iff asked]
      simp [fxpFsetstat, fxpRead, fxpWrite]

-----------------------------------------------------------------------------------------
-- A rename onto the path of a handle
-----------------------------------------------------------------------------------------

/-- A driver of two files: what it answers, and how RENAME moves their names. -/
inductive Renaming : (Bytes → Option Nat) → (call : DriverCall) → call.Answer
    → (Bytes → Option Nat) → Prop where
  | stats (names : Bytes → Option Nat) (path : Bytes) (st : Stat)
    : Renaming names (.stat path) (.ok (some st)) names
  | opens {names : Bytes → Option Nat} {path : Bytes} {id : Nat} (named : names path = some id)
    : Renaming names (.openFile path) (.ok (some { id, isWritable := true })) names
  | renames (names : Bytes → Option Nat) (oldPath newPath : Bytes)
    : Renaming names (.rename oldPath newPath) none fun path =>
        if path = oldPath then none else if path = newPath then names oldPath else names path

def renamingDriver : ObjectDriver (Bytes → Option Nat) Nat where
  names s := s
  object file := file.id
  answers := Renaming
  opens answered := by
    cases answered with
    | opens named => exact ⟨named, rfl⟩

/-- `/a` is the file 0, and `/b` the file 1. -/
def twoNames (path : Bytes) : Option Nat :=
  if path = [0x2f, 0x61] then some 0 else if path = [0x2f, 0x62] then some 1 else none

/-- What they name once `/b` was renamed to `/a`. -/
def renamedNames (path : Bytes) : Option Nat :=
  if path = [0x2f, 0x62] then none
  else if path = [0x2f, 0x61] then twoNames [0x2f, 0x62]
  else twoNames path

/-- A writable export of a driver that opens and truncates files. -/
def truncatingServer : Server := { sharedServer with truncater := true }

/-- RENAME of `/b` to `/a`. -/
def renameOnto : Bytes := [0, 0, 0, 2, 0, 0, 0, 2, 0x2f, 0x62, 0, 0, 0, 2, 0x2f, 0x61]

/-- FSETSTAT of the size 0 through the handle whose random bytes are all zero. -/
def fsetstatSize : Bytes :=
  [0, 0, 0, 3, 0, 0, 0, 32] ++ sharedHandle 0 ++ [0, 0, 0, 1, 0, 0, 0, 0, 0, 0, 0, 0]

/-- The call that sets the size of `/a`. -/
def truncateOnto : DriverCall := .truncate [0x2f, 0x61] 0

/-- A client opens `/a` and comes to set the size through the handle. -/
theorem Session.Run.truncating
    : ∃ trace s,
        Session.Run truncatingServer Session.initial trace s
        ∧ renamingDriver.Moves twoNames (effects trace) twoNames
        ∧ (grantedBy trace (sharedHandle 0)).isSome
        ∧ s.handles.get (sharedHandle 0) = some (rootHandle 0x61 0)
        ∧ s.Making fxpFsetstat fsetstatSize truncateOnto := by
  have opened := (Session.Run.negotiating truncatingServer).trans
    (.dispatching fxpOpen (openShared 0x61) rfl rfl rfl
      (Interaction.interpret_runs (fun (_ : Unit) _ => (default, ())) () _))
  have asked := opened.trans
    (.single (@Session.Step.dispatched _ _ fxpFsetstat fsetstatSize rfl rfl rfl))
  have locked := asked.trans (.single (.advanced () rfl))
  refine ⟨_, _, locked, ?_, rfl, rfl, .alone rfl⟩
  exact ⟨_, .stats _ _ _, _, .opens rfl, rfl⟩

/-- Between the two, `/b` is renamed to `/a`. -/
theorem Session.Run.truncatingRenamed
    : ∃ trace s,
        Session.Run truncatingServer Session.initial trace s
        ∧ renamingDriver.Moves twoNames (effects trace) renamedNames
        ∧ (grantedBy trace (sharedHandle 0)).isSome
        ∧ s.handles.get (sharedHandle 0) = some (rootHandle 0x61 0)
        ∧ s.Making fxpFsetstat fsetstatSize truncateOnto := by
  have opened := (Session.Run.negotiating truncatingServer).trans
    (.dispatching fxpOpen (openShared 0x61) rfl rfl rfl
      (Interaction.interpret_runs (fun (_ : Unit) _ => (default, ())) () _))
  have renamed := opened.trans
    (.dispatching fxpRename renameOnto rfl rfl rfl
      (Interaction.interpret_runs (fun (_ : Unit) _ => (default, ())) () _))
  have asked := renamed.trans
    (.single (@Session.Step.dispatched _ _ fxpFsetstat fsetstatSize rfl rfl rfl))
  have locked := asked.trans (.single (.advanced () rfl))
  refine ⟨_, _, locked, ?_, rfl, rfl, .alone rfl⟩
  exact ⟨_, .stats _ _ _, _, .opens rfl, _, .renames _ _ _, rfl⟩

/-- A client opens `/a`, the file 0, another file is renamed to `/a`, and the client sets the
size through its handle: what is truncated is the file 1.
-/
theorem fsetstat_truncates_another
    : ∃ sys : ObjectSystem Unit (Bytes → Option Nat),
        sys.Run truncatingServer renamingDriver
        ∧ (grantedBy (sys.traces ()) (sharedHandle 0)).isSome
        ∧ (sys.sessions ()).handles.get (sharedHandle 0) = some (rootHandle 0x61 0)
        ∧ renamingDriver.object { id := 0, isWritable := true } = 0
        ∧ ThroughHandle (sharedHandle 0) fxpFsetstat fsetstatSize
        ∧ (sys.sessions ()).Making fxpFsetstat fsetstatSize truncateOnto
        ∧ renamingDriver.touched sys.state truncateOnto = [some 1] := by
  obtain ⟨trace, s, more, moves, granted, found, making⟩ := Session.Run.truncatingRenamed
  obtain ⟨sys, run, state, rfl, rfl⟩ :=
    (ObjectSystem.Run.start (ι := Unit) twoNames).extend (i := ()) more rfl moves
  refine ⟨sys, run, granted, found, rfl, .fsetstat rfl rfl, making, ?_⟩
  rw [state]
  rfl

/-- Without the rename it is the file that was opened. -/
theorem handle_object_truncating
    : ∃ sys : ObjectSystem Unit (Bytes → Option Nat),
        sys.Run truncatingServer renamingDriver
        ∧ (sys.sessions ()).Making fxpFsetstat fsetstatSize truncateOnto
        ∧ ∀ object ∈ renamingDriver.touched sys.state truncateOnto, object = some 0 := by
  obtain ⟨trace, s, more, moves, granted, found, making⟩ := Session.Run.truncating
  obtain ⟨m, granted⟩ := Option.isSome_iff_exists.mp granted
  obtain ⟨sys, run, state, rfl, rfl⟩ :=
    (ObjectSystem.Run.start (ι := Unit) twoNames).extend (i := ()) more rfl moves
  obtain ⟨file, _, _, opened, _, _, _, _, _, touches⟩ :=
    handle_object_iff rfl run granted found (.fsetstat rfl rfl) making
  obtain rfl : file = { id := 0, isWritable := true } := (Option.some.inj opened).symm
  refine ⟨sys, run, making, touches.mpr (.inr (.inr ?_))⟩
  rw [state]
  rfl

end SftpServer.Sftp
