import SftpServer.Concurrency.LockDiscipline
import SftpServer.Foundations.Sections

/-! The filesystem lock between sessions. The goroutines of all sessions of a server contend
for one lock: it is taken exclusively, or shared by positional I/O, and calls by path share it
too if the embedder asserted `PathOpsConcurrent`. A driver's answers may depend on a state that
its calls change.
-/

namespace SftpServer.Sftp

open SftpServer.Foundations
open SftpServer.Wire

/-- What two goroutines may hold at once. -/
def LockMode.compatible (pathConcurrent : Bool) : LockMode → LockMode → Bool
  | .io, .io => true
  | .exclusive, _ => false
  | _, .exclusive => false
  | .path, _ => pathConcurrent
  | .io, .path => pathConcurrent

theorem LockMode.compatible_comm (pathConcurrent : Bool) (a b : LockMode)
    : a.compatible pathConcurrent b = b.compatible pathConcurrent a := by
  cases a <;> cases b <;> rfl

/-- What the goroutines of a session hold. -/
def Locks.modes (locks : Locks) : List LockMode :=
  locks.reading.toList ++ locks.flying.flatMap Option.toList

/-- What a driver and a random source may answer, and how they go on. -/
abbrev Environment (σ : Type) := σ → Event → σ → Prop

/-- The lock is the server's own: nothing around it notices. -/
def Environment.moves {σ : Type} (env : Environment σ) : Environment σ
  | s, ⟨.lock _, _⟩, later => later = s
  | s, event, later => env s event later

/-- Every call returns. -/
def Environment.Returns {σ : Type} (env : Environment σ) : Prop :=
  ∀ s (effect : Effect), ∃ answer later, env.moves s ⟨effect, answer⟩ later

/-- Sessions of one server that contend for its lock, the state of what surrounds them, and
what was seen of them so far.
-/
structure Contended (ι σ : Type) where
  members : ι → Session × Locks := fun _ => (.initial, {})
  state : σ
  seen : List (ι × Observation) := []

namespace Contended

variable {ι σ : Type} [DecidableEq ι]

/-- The lock lets a goroutine have what it takes. -/
def Grants (pathConcurrent : Bool) (sys : Contended ι σ) (events : List Event) : Prop :=
  ∀ event ∈ events, ∀ op : LockOp, event.question = .lock op → op.acquires = true
    → ∀ j, ∀ mode ∈ (sys.members j).2.modes, op.mode.compatible pathConcurrent mode = true

/-- A member of the system has taken a step. -/
def after (sys : Contended ι σ) (i : ι) (trace : List Observation) (later : Session × Locks)
    (state : σ) : Contended ι σ where
  members := Function.update sys.members i later
  state
  seen := sys.seen ++ trace.map fun observed => (i, observed)

/-- One goroutine of one session takes a step. -/
inductive Step (srv : Server) (pathConcurrent : Bool) (env : Environment σ)
    : Contended ι σ → ι → List Observation → Contended ι σ → Prop where
  | mk {sys : Contended ι σ} {i : ι} {held : Option LockMode} {trace : List Observation}
    {later : Session × Locks} {state : σ} (step : LockedStep srv (sys.members i) held trace later)
    (granted : sys.Grants pathConcurrent (effects trace))
    (path : Path env.moves sys.state (effects trace) state)
    : Step srv pathConcurrent env sys i trace (sys.after i trace later state)

/-- The runs of any number of sessions of one server. -/
inductive Run (srv : Server) (pathConcurrent : Bool) (env : Environment σ)
    : Contended ι σ → Prop where
  | start (state : σ) : Run srv pathConcurrent env { state }
  | step {sys later : Contended ι σ} {i : ι} {trace : List Observation}
    (run : Run srv pathConcurrent env sys) (step : Step srv pathConcurrent env sys i trace later)
    : Run srv pathConcurrent env later

/-- What was seen of one session. -/
def traceOf (sys : Contended ι σ) (i : ι) : List Observation :=
  sys.seen.filterMap fun (j, observed) => if j = i then some observed else none

theorem traceOf_after (sys : Contended ι σ) (i j : ι) (trace : List Observation)
    (later : Session × Locks) (state : σ)
    : (sys.after i trace later state).traceOf j
      = sys.traceOf j ++ if i = j then trace else [] := by
  simp only [traceOf, after, List.filterMap_append, List.filterMap_map]
  by_cases same : i = j
  · simp [same]
  · simp [same]

variable {srv : Server} {pathConcurrent : Bool} {env : Environment σ} {sys : Contended ι σ}

/-- Of each session it is a run, by induction on the steps. -/
theorem Run.session (run : Run srv pathConcurrent env sys) (i : ι)
    : Session.Run srv .initial (sys.traceOf i) (sys.members i).1 := by
  induction run with
  | start state => exact .refl _
  | @step sys later j trace _ step ih =>
      cases step with
      | mk step granted path =>
          rw [traceOf_after]
          by_cases same : j = i
          · subst same
            simpa [after] using Session.Run.step ih step.session
          · simpa [after, same, Function.update_of_ne (Ne.symm same)] using ih

/-- It is a run of sessions with their locks, by induction on the steps. -/
theorem Run.locked (run : Run srv pathConcurrent env sys) : LockedRun srv sys.members := by
  induction run with
  | start state => exact .start
  | step _ step ih =>
      cases step with
      | mk step granted path => exact ih.step step

theorem Run.guarded (run : Run srv pathConcurrent env sys) (i : ι)
    : Guarded (sys.members i) ∧ (sys.members i).1.Safe srv fun _ => True :=
  run.locked.guarded i

end Contended

-----------------------------------------------------------------------------------------
-- Mutual exclusion
-----------------------------------------------------------------------------------------

/-- What is held after an effect: what the effect takes, or no more than before. -/
theorem discipline_next_modes (held : Option LockMode) {effect : Effect}
    (answer : effect.Answer)
    : discipline.next held effect answer = held ∨ discipline.next held effect answer = none
      ∨ ∃ op, effect = .lock op ∧ op.acquires = true
        ∧ discipline.next held effect answer = some op.mode := by
  cases effect with
  | driver call => exact .inl rfl
  | randRead => exact .inl rfl
  | lock op =>
      cases takes : op.acquires with
      | true => exact .inr (.inr ⟨op, rfl, takes, by simp [discipline, takes]⟩)
      | false => exact .inr (.inl (by simp [discipline, takes]))

/-- What one request in flight holds, and what the other goroutines do. -/
theorem Locks.modes_split (reading held : Option LockMode) (early late : List (Option LockMode))
    : (Locks.modes ⟨reading, early ++ held :: late⟩).Perm
        (held.toList
          ++ (reading.toList ++ early.flatMap Option.toList ++ late.flatMap Option.toList)) := by
  simp only [Locks.modes, List.flatMap_append, List.flatMap_cons]
  rw [← List.append_assoc, ← List.append_assoc, ← List.append_assoc]
  exact (List.perm_append_comm).append_right _

/-- The goroutine that takes a step changes what it holds itself, and nothing else. -/
theorem LockedStep.modes {srv : Server} {now later : Session × Locks} {held : Option LockMode}
    {trace : List Observation} (step : LockedStep srv now held trace later)
    (guarded : Guarded now)
    : ∃ others,
        now.2.modes.Perm (held.toList ++ others)
        ∧ later.2.modes.Perm ((discipline.after held (effects trace)).toList ++ others) := by
  cases step with
  | reading step kept => exact ⟨_, .rfl, .rfl⟩
  | started phase prepared =>
      refine ⟨_, .rfl, ?_⟩
      simp [Locks.modes, effects, Monitor.after]
  | flew answer inFlight place asks =>
      exact ⟨_, Locks.modes_split .., Locks.modes_split ..⟩
  | @landed s reading before after flight early late held reply inFlight place returns =>
      obtain ⟨_, disciplined, _⟩ := guarded.split inFlight place
      rw [returns] at disciplined
      -- A request that has returned has given the lock back.
      cases disciplined
      exact ⟨_, .rfl, by simp [Locks.modes, effects, Monitor.after]⟩

/-- Whatever two goroutines hold, of one session or of two, they may hold at once. -/
structure Exclusion {ι : Type} (pathConcurrent : Bool) (members : ι → Session × Locks)
    : Prop where
  within : ∀ i, (members i).2.modes.Pairwise fun a b => a.compatible pathConcurrent b = true
  between : ∀ i j, i ≠ j → ∀ a ∈ (members i).2.modes, ∀ b ∈ (members j).2.modes,
    a.compatible pathConcurrent b = true

namespace Contended

variable {ι σ : Type} [DecidableEq ι] {srv : Server} {pathConcurrent : Bool}
  {env : Environment σ} {sys later : Contended ι σ} {i : ι} {trace : List Observation}

/-- One goroutine of the session changed what it holds: it keeps it, or was granted it. -/
theorem Step.changes (step : Step srv pathConcurrent env sys i trace later)
    (guarded : Guarded (sys.members i))
    : ∃ held new others,
        (sys.members i).2.modes.Perm (Option.toList held ++ others)
        ∧ (later.members i).2.modes.Perm (Option.toList new ++ others)
        ∧ (new = held ∨ ∀ mode ∈ new, ∀ j, ∀ other ∈ (sys.members j).2.modes,
          mode.compatible pathConcurrent other = true) := by
  cases step with
  | @mk held _ now state step granted path =>
      obtain ⟨others, before, after⟩ := step.modes guarded
      refine ⟨held, discipline.after held (effects trace), others, before, ?_, ?_⟩
      · simpa [Contended.after] using after
      rcases step.session.effects_few with none_made | ⟨event, made⟩
      · exact .inl (by rw [none_made]; rfl)
      obtain ⟨effect, answer⟩ := event
      have next : discipline.after held [⟨effect, answer⟩] = discipline.next held effect answer :=
        rfl
      rw [made, next]
      rcases discipline_next_modes held answer with same | given | ⟨op, rfl, takes, taken⟩
      · exact .inl same
      · exact .inr (by simp [given])
      · refine .inr fun mode holds => ?_
        rw [taken, Option.mem_some_iff] at holds
        subst holds
        exact granted ⟨.lock op, answer⟩ (by simp [made]) op rfl takes

theorem Step.members_of_ne (step : Step srv pathConcurrent env sys i trace later) {j : ι}
    (other : j ≠ i)
    : later.members j = sys.members j := by
  cases step with
  | mk step granted path => exact Function.update_of_ne other _ _

/-- A step keeps the goroutines apart. -/
theorem Step.exclusion (step : Step srv pathConcurrent env sys i trace later)
    (guarded : Guarded (sys.members i)) (apart : Exclusion pathConcurrent sys.members)
    : Exclusion pathConcurrent later.members := by
  obtain ⟨held, new, others, before, after, change⟩ := step.changes guarded
  have symmetric : Std.Symm fun a b : LockMode => a.compatible pathConcurrent b = true :=
    ⟨fun a b together => by rwa [LockMode.compatible_comm]⟩
  have kept {mode : LockMode} (member : mode ∈ others) : mode ∈ (sys.members i).2.modes :=
    before.mem_iff.mpr (List.mem_append_right _ member)
  -- The goroutine that moved beside one of another session.
  have beside {j : ι} (other : j ≠ i) {a b : LockMode} (mine : a ∈ (later.members i).2.modes)
      (theirs : b ∈ (later.members j).2.modes)
      : a.compatible pathConcurrent b = true := by
    rw [step.members_of_ne other] at theirs
    rcases List.mem_append.mp (after.mem_iff.mp mine) with moved | stayed
    · rw [Option.mem_toList] at moved
      rcases change with rfl | granted
      · refine apart.between i j other.symm a (before.mem_iff.mpr ?_) b theirs
        exact List.mem_append_left _ (Option.mem_toList.mpr moved)
      · exact granted a moved j b theirs
    · exact apart.between i j other.symm a (kept stayed) b theirs
  constructor
  · intro j
    by_cases other : j = i
    · subst other
      have pairs := (before.pairwise_iff fun together => symmetric.symm _ _ together).mp
        (apart.within j)
      refine (after.pairwise_iff fun together => symmetric.symm _ _ together).mpr ?_
      rcases change with rfl | granted
      · exact pairs
      cases new with
      | none => exact (List.pairwise_append.mp pairs).2.1
      | some mode =>
          refine List.pairwise_cons.mpr ⟨?_, (List.pairwise_append.mp pairs).2.1⟩
          exact fun other member => granted mode rfl j other (kept member)
    · rw [step.members_of_ne other]
      exact apart.within j
  · intro j k distinct a mine b theirs
    by_cases first : j = i
    · subst first
      exact beside distinct.symm mine theirs
    by_cases second : k = i
    · subst second
      rw [LockMode.compatible_comm]
      exact beside first theirs mine
    rw [step.members_of_ne first] at mine
    rw [step.members_of_ne second] at theirs
    exact apart.between j k distinct a mine b theirs

/-- In every run of any number of sessions of one server, what the goroutines of all sessions
hold at a time they may hold at once, by induction on the steps.
-/
theorem Run.exclusion (run : Run srv pathConcurrent env sys)
    : Exclusion pathConcurrent sys.members := by
  induction run with
  | start state => exact ⟨fun _ => .nil, fun _ _ _ _ mine => (List.not_mem_nil mine).elim⟩
  | step run step ih => exact step.exclusion (run.guarded _).1 ih

end Contended

end SftpServer.Sftp
