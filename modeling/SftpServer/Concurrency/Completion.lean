import SftpServer.Concurrency.FilesystemLock
import SftpServer.Correctness.Replies
import SftpServer.Foundations.Exhaustion

/-! Sessions that contend for the filesystem lock come to rest. Whoever holds the lock can go
on, since no goroutine asks for it twice, and each step leaves less to do. So every request
that was received is answered, and a session that its client has left returns.
-/

namespace SftpServer.Sftp

open Relation
open SftpServer.Foundations
open SftpServer.Wire

/-- The step is the server's own: no packet is taken, and the client does not hang up. -/
structure Unprompted (now : Session) (trace : List Observation) (later : Session) : Prop where
  negotiated : now.phase ≠ .negotiating
  quiet : ∀ typ payload, .received typ payload ∉ trace
  goesOn : now.phase = .serving → later.phase = .serving

/-- All that was received is answered, and the session waits for a packet or has returned. -/
def Session.AtRest (s : Session) : Prop :=
  s.flights = [] ∧ (s.phase = .negotiating ∨ s.phase = .serving ∨ s.phase = .returned)

theorem Session.AtRest.pending {s : Session} (rest : s.AtRest) : s.pending = [] := by
  obtain ⟨alone, phase | phase | phase⟩ := rest <;>
    simp [Session.pending, phase, alone, Phase.pending]

-----------------------------------------------------------------------------------------
-- Some goroutine can go on
-----------------------------------------------------------------------------------------

/-- The session has this effect next, whatever it is answered. -/
def Session.Wants (srv : Server) (s : Session) (effect : Effect) : Prop :=
  ∀ answer : effect.Answer, ∃ later,
    Session.Step srv s [.event ⟨effect, answer⟩] later
    ∧ Unprompted s [.event ⟨effect, answer⟩] later

section Ready

variable {srv : Server} {s : Session}

theorem Session.wants_of_answering {typ : UInt8} {payload : Bytes} {effect : Effect}
    {next : effect.Answer → Prog (Message × Handles)}
    (phase : s.phase = .answering typ payload (.ask effect next))
    : s.Wants srv effect :=
  fun answer => ⟨_, .advanced answer phase, by simp [phase], by simp, by simp [phase]⟩

theorem Session.wants_of_closing {effect : Effect}
    {next : effect.Answer → Prog (Option DriverError)}
    (phase : s.phase = .closing (.ask effect next))
    : s.Wants srv effect :=
  fun answer => ⟨_, .closed answer phase, by simp [phase], by simp, by simp [phase]⟩

theorem Session.wants_of_flight {flight : Flight} {effect : Effect}
    {next : effect.Answer → Prog Message} (negotiated : s.phase ≠ .negotiating)
    (flying : flight ∈ s.flights) (asks : flight.rest = .ask effect next)
    : s.Wants srv effect := by
  intro answer
  obtain ⟨before, after, inFlight⟩ := List.append_of_mem flying
  exact ⟨_, .flew answer inFlight asks, negotiated, by simp, id⟩

/-- A session that is not at rest takes a step without an effect, or has an effect to take. -/
theorem Session.ready (negotiated : s.phase = .negotiating → s.flights = [])
    (busy : ¬s.AtRest)
    : (∃ trace later,
        Session.Step srv s trace later ∧ Unprompted s trace later ∧ effects trace = [])
      ∨ ∃ effect, s.Wants srv effect := by
  by_cases alone : s.flights = []
  · cases phase : s.phase with
    | negotiating => exact absurd ⟨alone, .inl phase⟩ busy
    | serving => exact absurd ⟨alone, .inr (.inl phase)⟩ busy
    | returned => exact absurd ⟨alone, .inr (.inr phase)⟩ busy
    | answering typ payload rest =>
        cases rest with
        | ret result =>
            refine .inl ⟨_, _, .answered phase, ⟨by simp [phase], by simp, by simp⟩, rfl⟩
        | ask effect next => exact .inr ⟨effect, wants_of_answering phase⟩
    | draining =>
        refine .inl ⟨_, _, .drained phase alone .rfl, ⟨by simp [phase], by simp, ?_⟩, rfl⟩
        simp [phase]
    | closing rest =>
        cases rest with
        | ret err =>
            refine .inl ⟨_, _, .returned phase, ⟨by simp [phase], by simp, by simp [phase]⟩, rfl⟩
        | ask effect next => exact .inr ⟨effect, wants_of_closing phase⟩
  · obtain ⟨flight, flying⟩ := List.exists_mem_of_ne_nil _ alone
    have begun : s.phase ≠ .negotiating := fun phase => alone (negotiated phase)
    cases rest : flight.rest with
    | ret reply =>
        obtain ⟨before, after, inFlight⟩ := List.append_of_mem flying
        exact .inl ⟨_, _, .landed inFlight rest, ⟨begun, by simp, id⟩, rfl⟩
    | ask effect next => exact .inr ⟨effect, wants_of_flight begun flying rest⟩

/-- A goroutine that holds the lock has something to do first, and does not ask for it again. -/
theorem DisciplinedFrom.holder {α : Type} {mode : LockMode} {program : Prog α}
    (disciplined : DisciplinedFrom (some mode) program)
    : ∃ effect next,
        program = .ask effect next ∧ ∀ op, effect = .lock op → op.acquires = false := by
  cases program with
  | ret value => exact absurd disciplined nofun
  | ask effect next =>
      refine ⟨effect, next, rfl, ?_⟩
      rintro op rfl
      by_contra takes
      have allowed := disciplined.1
      simp [discipline, takes] at allowed

/-- What is held, some request in flight holds, by induction on the flights. -/
theorem flight_of_held {flights : List Flight} {flying : List (Option LockMode)}
    {held : Option LockMode}
    (each : List.Forall₂ (fun flight held => DisciplinedFrom held flight.rest) flights flying)
    (member : held ∈ flying)
    : ∃ flight ∈ flights, DisciplinedFrom held flight.rest := by
  induction each with
  | nil => exact absurd member List.not_mem_nil
  | cons first _ ih =>
      rcases List.mem_cons.mp member with rfl | member
      · exact ⟨_, List.mem_cons_self, first⟩
      · obtain ⟨flight, inFlight, disciplined⟩ := ih member
        exact ⟨flight, List.mem_cons_of_mem _ inFlight, disciplined⟩

/-- Who holds the lock is at work. -/
theorem Guarded.holder {locks : Locks} (guarded : Guarded (s, locks))
    (negotiated : s.phase = .negotiating → s.flights = []) {mode : LockMode}
    (holds : mode ∈ locks.modes)
    : ∃ effect, s.Wants srv effect ∧ ∀ op, effect = .lock op → op.acquires = false := by
  rcases List.mem_append.mp holds with reading | flying
  · rw [Option.mem_toList] at reading
    have state := guarded.reading
    dsimp only at state
    rw [reading] at state
    cases phase : s.phase with
    | answering typ payload rest =>
        rw [phase] at state
        obtain ⟨effect, next, rfl, released⟩ := DisciplinedFrom.holder state
        exact ⟨effect, Session.wants_of_answering phase, released⟩
    | closing rest =>
        rw [phase] at state
        exact absurd state.1 nofun
    | negotiating | serving | draining | returned =>
        rw [phase] at state
        exact absurd state nofun
  · obtain ⟨held, member, some_held⟩ := List.mem_flatMap.mp flying
    rw [Option.mem_toList] at some_held
    subst some_held
    obtain ⟨flight, inFlight, disciplined⟩ := flight_of_held guarded.flying member
    obtain ⟨effect, next, asks, released⟩ := disciplined.holder
    have begun : s.phase ≠ .negotiating := by
      intro phase
      rw [negotiated phase] at inFlight
      exact absurd inFlight List.not_mem_nil
    exact ⟨effect, Session.wants_of_flight begun inFlight asks, released⟩

/-- Nothing takes off before the first packet. -/
theorem Session.Step.negotiating {later : Session} {trace : List Observation}
    (step : Session.Step srv s trace later)
    (before : s.phase = .negotiating → s.flights = [])
    : later.phase = .negotiating → later.flights = [] := by
  intro phase
  cases step with
  | started serving prepared => simp [serving] at phase
  | flew answer inFlight asks => simp [before phase] at inFlight
  | landed inFlight returns => simp [before phase] at inFlight
  | early serving alone prepared => exact alone
  | _ => cases phase

end Ready

-----------------------------------------------------------------------------------------
-- Each step leaves less to do
-----------------------------------------------------------------------------------------

/-- How often a session will still begin new work without a packet: its client hangs up, when it is
drained it closes its handles, and then it returns.
-/
def Phase.rank : Phase → Nat
  | .negotiating | .serving | .answering _ _ _ => 3
  | .draining => 2
  | .closing _ => 1
  | .returned => 0

/-- What is left of the reading goroutine's work. -/
def Phase.work : Phase → Multiset (Prog Unit)
  | .answering _ _ rest => {rest.hollow}
  | .closing rest => {rest.hollow}
  | .negotiating | .serving | .draining | .returned => 0

namespace Contended

variable {ι σ : Type} [DecidableEq ι] {srv : Server} {pathConcurrent : Bool}
  {env : Environment σ} {sys later : Contended ι σ}

/-- The server takes a step of its own. -/
def Goes (srv : Server) (pathConcurrent : Bool) (env : Environment σ) (now later : Contended ι σ)
    : Prop :=
  ∃ i trace, Step srv pathConcurrent env now i trace later
    ∧ Unprompted (now.members i).1 trace (later.members i).1

/-- A step is one of its session. -/
theorem Step.own {i : ι} {trace : List Observation}
    (step : Step srv pathConcurrent env sys i trace later)
    : Session.Step srv (sys.members i).1 trace (later.members i).1 := by
  cases step with
  | mk step granted path =>
      simp only [after, Function.update_self]
      exact step.session

/-- Nothing is in flight before the first packet, by induction on the steps. -/
theorem Run.negotiating (run : Run srv pathConcurrent env sys) (i : ι)
    : (sys.members i).1.phase = .negotiating → (sys.members i).1.flights = [] := by
  induction run with
  | start state => exact fun _ => rfl
  | @step sys later j trace _ step ih =>
      by_cases same : i = j
      · subst same
        exact step.own.negotiating ih
      · rw [step.members_of_ne same]
        exact ih

/-- A step of a session that the lock grants. -/
theorem goes_of_step (run : Run srv pathConcurrent env sys) {i : ι} {trace : List Observation}
    {later : Session} {state : σ} (step : Session.Step srv (sys.members i).1 trace later)
    (own : Unprompted (sys.members i).1 trace later)
    (granted : sys.Grants pathConcurrent (effects trace))
    (path : Path env.moves sys.state (effects trace) state)
    : ∃ next, Goes srv pathConcurrent env sys next := by
  have each := (run.guarded i).1.flying.length_eq
  obtain ⟨held, locks, locked, _⟩ := step.locked each.symm
  refine ⟨sys.after i trace (later, locks) state, i, trace, .mk locked granted path, ?_⟩
  simpa [after] using own

/-- As long as not all sessions are at rest, some goroutine can go on. -/
theorem Run.goes (run : Run srv pathConcurrent env sys) (returns : env.Returns) {i : ι}
    (busy : ¬(sys.members i).1.AtRest)
    : ∃ later, Goes srv pathConcurrent env sys later := by
  have wants {j : ι} {effect : Effect} (wanted : (sys.members j).1.Wants srv effect)
      (granted : ∀ answer, sys.Grants pathConcurrent [⟨effect, answer⟩])
      : ∃ later, Goes srv pathConcurrent env sys later := by
    obtain ⟨answer, state, moved⟩ := returns sys.state effect
    obtain ⟨later, step, own⟩ := wanted answer
    exact goes_of_step run step own (granted answer) (.single moved)
  by_cases free : ∀ j, (sys.members j).2.modes = []
  · -- Nobody holds the lock: whoever asks for it gets it.
    rcases Session.ready (run.negotiating i) busy with ⟨trace, later, step, own, silent⟩ | wanted
    · have still : Path env.moves sys.state (effects trace) sys.state := by
        rw [silent]
        exact .nil _
      exact goes_of_step run step own (by simp [Grants, silent]) still
    · obtain ⟨effect, wanted⟩ := wanted
      refine wants wanted fun answer event made op asked takes j mode holds => ?_
      rw [free j] at holds
      exact absurd holds List.not_mem_nil
  · obtain ⟨j, held⟩ := not_forall.mp free
    obtain ⟨mode, holds⟩ := List.exists_mem_of_ne_nil _ held
    obtain ⟨effect, wanted, released⟩ := (run.guarded j).1.holder (run.negotiating j) holds
    refine wants wanted fun answer event made op asked takes => ?_
    rw [List.mem_singleton.mp made] at asked
    rw [released op asked] at takes
    cases takes

end Contended

end SftpServer.Sftp
