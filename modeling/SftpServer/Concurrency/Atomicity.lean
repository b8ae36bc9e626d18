import SftpServer.Concurrency.FilesystemLock

/-! Requests are atomic between sessions. Without `PathOpsConcurrent`, all that a request asks
of the driver lies in one critical section, and only single positional reads and writes share
the lock. So whatever the goroutines of all sessions do side by side, they could as well have
done with each request at once, between its packet and its reply. What is not under the lock,
the closing of files at the end of a session, stays a matter of single calls.
-/

namespace SftpServer.Sftp

open SftpServer.Foundations
open SftpServer.Wire

/-- Whom the lock keeps out: without `PathOpsConcurrent`, only positional I/O shares it. -/
def LockMode.guard : LockMode → Guard
  | .io => .shared
  | .path | .exclusive => .exclusive

theorem LockMode.shared_of_compatible {a b : LockMode} (together : a.compatible false b = true)
    : b.guard = .shared := by
  cases a <;> cases b <;> first | rfl | cases together

/-- The filesystem lock as the gate of critical sections. -/
def fsGate : Gate Effect where
  opens
    | .lock op => if op.acquires then some op.mode.guard else none
    | .driver _ | .randRead => none
  closes
    | .lock op => !op.acquires
    | .driver _ | .randRead => false

theorem fsGate_passes_iff {effect : Effect}
    : fsGate.Passes effect ↔ ∃ op, effect = .lock op := by
  cases effect with
  | lock op => cases takes : op.acquires <;> simp [Gate.Passes, fsGate, takes]
  | driver call => simp [Gate.Passes, fsGate]
  | randRead => simp [Gate.Passes, fsGate]

/-- The gate counts what the discipline does. -/
theorem fsGate_after (held : Option LockMode) {effect : Effect} (answer : effect.Answer)
    : fsGate.after (held.map LockMode.guard) effect
      = (discipline.next held effect answer).map LockMode.guard := by
  cases effect with
  | lock op => cases takes : op.acquires <;> simp [Gate.after, fsGate, discipline, takes]
  | driver call => rfl
  | randRead => rfl

theorem Environment.quiet {σ : Type} (env : Environment σ) : Quiet fsGate env.moves := by
  intro s later effect answer passes
  obtain ⟨op, rfl⟩ := fsGate_passes_iff.mp passes
  exact Iff.rfl

-----------------------------------------------------------------------------------------
-- Each request has one critical section
-----------------------------------------------------------------------------------------

/-- Work, and not the lock. -/
def Works (effect : Effect) : Prop := ¬fsGate.Passes effect

theorem works_driver (call : DriverCall) : Works (.driver call) := by
  simp [Works, fsGate_passes_iff]

theorem works_randRead : Works .randRead := by
  simp [Works, fsGate_passes_iff]

theorem works_of_under {mode : LockMode} {effect : Effect} (under : Under mode effect)
    : Works effect := by
  cases effect with
  | lock op => exact under.elim
  | driver call => exact works_driver call
  | randRead => exact works_randRead

theorem withLock_sectioned {α : Type} {body : Prog α} {acquire release : LockOp}
    (takes : acquire.acquires = true) (gives : release.acquires = false)
    (asks : body.Asks Works fun _ => True)
    (brief : acquire.mode.guard = .shared → body.Brief)
    : (withLock acquire release body).Sectioned fsGate := by
  have inSection : Interaction.InSection fsGate acquire.mode.guard (.lock acquire)
      (.lock release) body := {
    opens := by simp [fsGate, takes]
    closes := by simp [fsGate, gives]
    apart := by simp [fsGate, gives]
    works := asks
    brief
  }
  exact .guarded inSection

theorem OneSection.sectioned {α : Type} {program : Prog α}
    (one : OneSection Works Works program)
    : program.Sectioned fsGate := by
  cases one with
  | reply value => exact .plain value
  | shared asks => exact withLock_sectioned rfl rfl asks nofun
  | exclusive asks => exact withLock_sectioned rfl rfl asks nofun

theorem sharedCalls_work : SharedCalls Works where
  stat _ := works_driver _
  listDir _ := works_driver _
  readLink _ := works_driver _
  randRead := works_randRead

theorem exclusiveCalls_work : ExclusiveCalls Works where
  unplaced call _ := works_driver call
  truncate _ _ _ := works_driver _
  randRead := works_randRead

variable {srv : Server} {t : Handles}

theorem opExtended_one_section (m : ExtendedRequest)
    : OneSection Works Works (opExtended srv t m) := by
  unfold opExtended
  split
  · exact .reply _
  split
  · have outcome := copyData_outcome srv t m.id m.data
    generalize copyData srv t m.id m.data = program at outcome
    cases outcome with
    | refused => exact .reply _
    | served =>
        refine .exclusive ((copyLocked_under m.id _ _ _).mono ?_ fun _ _ => trivial)
        exact fun _ under => works_of_under under
  · exact .reply _

/-- Every request that runs alone has one critical section at most. -/
theorem dispatch_sectioned (typ : UInt8) (payload : Bytes)
    : (dispatch srv t typ payload).Sectioned fsGate := by
  rcases dispatch_section sharedCalls_work exclusiveCalls_work srv t typ payload
    with one | ⟨m, extended⟩
  · exact one.sectioned
  · rw [extended]
    exact (opExtended_one_section m).keeping.sectioned

theorem readAt_brief (id : UInt32) (file : File) (off : UInt64) (n : Nat)
    : (readAt id file off n).Brief := by
  unfold readAt
  split
  · exact .ret _
  refine .ask fun read => ?_
  obtain ⟨got, err⟩ := read
  dsimp only [Interaction.bind]
  split
  · exact ⟨_, rfl⟩
  split
  · exact ⟨_, rfl⟩
  split <;> exact ⟨_, rfl⟩

theorem writeAt_brief (id : UInt32) (file : File) (data : Bytes) (off : Int64)
    : (statusOf id (file.writeAt data off) statusFailure).Brief := by
  refine .ask fun answer => ?_
  cases answer <;> exact ⟨_, rfl⟩

/-- So has every READ and WRITE, and the one that shares the lock makes one call. -/
theorem job_sectioned {typ : UInt8} {payload : Bytes} {job : Job}
    (prepared : prepare srv t typ payload = (some job, none))
    : job.run.Sectioned fsGate := by
  have preparation := prepare_preparation srv t typ payload
  rw [prepared] at preparation
  cases preparation with
  | readsAt =>
      exact withLock_sectioned rfl rfl (readAt_calls _ fun _ => works_driver _)
        fun _ => readAt_brief _ _ _ _
  | readsWhole =>
      exact withLock_sectioned rfl rfl (readWhole_calls _ _ _ (works_driver _)) nofun
  | writesAt =>
      exact withLock_sectioned rfl rfl (statusOf_calls ⟨works_driver _, fun _ => trivial⟩)
        fun _ => writeAt_brief _ _ _ _
  | rewrites =>
      exact withLock_sectioned rfl rfl (writeSplice_calls exclusiveCalls_work _ _ _ _) nofun

-----------------------------------------------------------------------------------------
-- Sessions whose requests are atomic
-----------------------------------------------------------------------------------------

/-- Sessions of one server, and what surrounds them, where each request is done at once. -/
structure Atomic (ι σ : Type) where
  sessions : ι → Session := fun _ => .initial
  state : σ
  seen : List (ι × Observation) := []

namespace Atomic

variable {ι σ : Type} [DecidableEq ι]

def after (spec : Atomic ι σ) (i : ι) (trace : List Observation) (later : Session) (state : σ)
    : Atomic ι σ where
  sessions := Function.update spec.sessions i later
  state
  seen := spec.seen ++ trace.map fun observed => (i, observed)

/-- One step: of a session by itself, all the work of one request, or the closing of one file
at the end of a session.
-/
inductive Step (srv : Server) (env : Environment σ) : Atomic ι σ → Atomic ι σ → Prop where
  | plain {spec : Atomic ι σ} {i : ι} {trace : List Observation} {later : Session}
    (step : Session.Step srv (spec.sessions i) trace later) (silent : effects trace = [])
    : Step srv env spec (spec.after i trace later spec.state)
  | alone {spec : Atomic ι σ} {i : ι} {typ : UInt8} {payload : Bytes}
    {program : Prog (Message × Handles)} {calls : List Event} {result : Message × Handles}
    {state : σ} (phase : (spec.sessions i).phase = .answering typ payload program)
    (runs : program.Runs calls result) (path : Path env.moves spec.state calls state)
    : Step srv env spec (spec.after i (calls.map .event)
        { spec.sessions i with phase := .answering typ payload (.ret result) } state)
  | flight {spec : Atomic ι σ} {i : ι} {before after : List Flight} {flight : Flight}
    {calls : List Event} {reply : Message} {state : σ}
    (inFlight : (spec.sessions i).flights = before ++ flight :: after)
    (runs : flight.rest.Runs calls reply) (path : Path env.moves spec.state calls state)
    : Step srv env spec (spec.after i (calls.map .event)
        { spec.sessions i with flights := before ++ { flight with rest := .ret reply } :: after }
        state)
  | close {spec : Atomic ι σ} {i : ι} {effect : Effect}
    {next : effect.Answer → Prog (Option DriverError)} (answer : effect.Answer) {state : σ}
    (phase : (spec.sessions i).phase = .closing (.ask effect next))
    (moved : env.moves spec.state ⟨effect, answer⟩ state)
    : Step srv env spec (spec.after i [.event ⟨effect, answer⟩]
        { spec.sessions i with phase := .closing (next answer) } state)

inductive Run (srv : Server) (env : Environment σ) : Atomic ι σ → Prop where
  | start (state : σ) : Run srv env { state }
  | step {spec later : Atomic ι σ} (run : Run srv env spec) (step : Step srv env spec later)
    : Run srv env later

end Atomic

/-- The packets among what was seen, requests and replies. -/
def packetsOf {ι : Type} (seen : List (ι × Observation)) : List (ι × Observation) :=
  seen.filter fun
    | (_, .event _) => false
    | _ => true

/-- No exclusive holder among the goroutines of a session. -/
def Locks.NoneExclusive (locks : Locks) : Prop :=
  ∀ mode ∈ locks.modes, mode.guard = .shared

/-- The runs in which no session that ends closes a file while a request is at work under
the exclusive lock.
-/
inductive Contended.Orderly {ι σ : Type} [DecidableEq ι] (srv : Server) (env : Environment σ)
    : Contended ι σ → Prop where
  | start (state : σ) : Orderly srv env { state }
  | step {sys later : Contended ι σ} {i : ι} {trace : List Observation}
    (run : Orderly srv env sys) (step : Contended.Step srv false env sys i trace later)
    (apart : (sys.members i).1.phase.isClosing = true → effects trace ≠ []
      → ∀ j, (sys.members j).2.NoneExclusive)
    : Orderly srv env later

theorem Contended.Orderly.run {ι σ : Type} [DecidableEq ι] {env : Environment σ}
    {sys : Contended ι σ} (orderly : Contended.Orderly srv env sys)
    : Contended.Run srv false env sys := by
  induction orderly with
  | start state => exact .start state
  | step _ step _ ih => exact ih.step step

-----------------------------------------------------------------------------------------
-- One session beside its atomic one
-----------------------------------------------------------------------------------------

section Beside

variable {σ : Type} (env : Environment σ) (base now : σ)

/-- The reading goroutine where requests are atomic, and where the lock guards them. -/
inductive Phase.Beside : Option LockMode → Phase → Phase → Prop where
  | same {phase : Phase} (idle : ∀ typ payload rest, phase ≠ .answering typ payload rest)
    : Beside none phase phase
  | answering {held : Option LockMode} {typ : UInt8} {payload : Bytes}
    {spec impl : Prog (Message × Handles)}
    (stage : Stage fsGate env.moves base now (held.map LockMode.guard) spec impl)
    : Beside held (.answering typ payload spec) (.answering typ payload impl)

/-- A request in flight where requests are atomic, and where the lock guards them. -/
inductive Flight.Beside : Flight → Flight × Option LockMode → Prop where
  | mk {flight : Flight} {held : Option LockMode} {spec : Prog Message}
    (stage : Stage fsGate env.moves base now (held.map LockMode.guard) spec flight.rest)
    : Beside { flight with rest := spec } (flight, held)

/-- A session where requests are atomic, and where the lock guards them. -/
structure Session.Beside (spec : Session) (impl : Session × Locks) : Prop where
  handles : spec.handles = impl.1.handles
  reading : Phase.Beside env base now impl.2.reading spec.phase impl.1.phase
  flying : List.Forall₂ (Flight.Beside env base now) spec.flights
    (impl.1.flights.zip impl.2.flying)

variable {env base now}

theorem not_exclusive {held : Option LockMode} (shared : ∀ mode ∈ held, mode.guard = .shared)
    : held.map LockMode.guard ≠ some .exclusive := by
  cases held with
  | none => nofun
  | some mode => simp [shared mode rfl]

theorem Phase.Beside.elsewhere {held : Option LockMode} {spec impl : Phase}
    (beside : Phase.Beside env base now held spec impl)
    (shared : ∀ mode ∈ held, mode.guard = .shared) (base' now' : σ)
    : Phase.Beside env base' now' held spec impl := by
  cases beside with
  | same idle => exact .same idle
  | answering stage => exact .answering (stage.elsewhere (not_exclusive shared) base' now')

theorem flights_elsewhere {specs impls : List Flight} {flying : List (Option LockMode)}
    (each : List.Forall₂ (Flight.Beside env base now) specs (impls.zip flying))
    (shared : ∀ mode ∈ flying.flatMap Option.toList, mode.guard = .shared) (base' now' : σ)
    : List.Forall₂ (Flight.Beside env base' now') specs (impls.zip flying) := by
  rw [List.forall₂_iff_zip] at each ⊢
  refine ⟨each.1, fun paired => ?_⟩
  cases each.2 paired with
  | @mk flight held spec stage =>
      refine .mk (stage.elsewhere (not_exclusive fun mode holds => shared mode ?_) base' now')
      have member := (List.of_mem_zip (List.of_mem_zip paired).2).2
      exact List.mem_flatMap.mpr ⟨held, member, Option.mem_toList.mpr holds⟩

theorem Phase.Beside.idle {held : Option LockMode} {spec impl : Phase}
    (beside : Phase.Beside env base now held spec impl)
    (idle : ∀ typ payload rest, impl ≠ .answering typ payload rest)
    : held = none ∧ spec = impl := by
  cases beside with
  | same => exact ⟨rfl, rfl⟩
  | answering => exact absurd rfl (idle _ _ _)

theorem Phase.Beside.of_answering {held : Option LockMode} {spec : Phase} {typ : UInt8}
    {payload : Bytes} {impl : Prog (Message × Handles)}
    (beside : Phase.Beside env base now held spec (.answering typ payload impl))
    : ∃ program,
        spec = .answering typ payload program
        ∧ Stage fsGate env.moves base now (held.map LockMode.guard) program impl := by
  cases beside with
  | same idle => exact absurd rfl (idle _ _ _)
  | answering stage => exact ⟨_, rfl, stage⟩

variable {spec s later : Session} {locks : Locks} {trace : List Observation}

/-- The other sessions do not notice where the environment is. -/
theorem Session.Beside.elsewhere {impl : Session × Locks}
    (beside : Session.Beside env base now spec impl) (shared : impl.2.NoneExclusive)
    (base' now' : σ)
    : Session.Beside env base' now' spec impl where
  handles := beside.handles
  reading := beside.reading.elsewhere (fun mode holds =>
    shared mode (List.mem_append_left _ (Option.mem_toList.mpr holds))) base' now'
  flying := flights_elsewhere beside.flying (fun mode holds =>
    shared mode (List.mem_append_right _ holds)) base' now'

/-- Where nobody holds the lock, nothing is half done. -/
theorem Session.Beside.eq_of_free (beside : Session.Beside env base now spec (s, locks))
    (aligned : s.flights.length = locks.flying.length) (free : locks.modes = [])
    : spec = s := by
  obtain ⟨handles, reading, flying⟩ := beside
  obtain ⟨idle, none_flying⟩ := List.append_eq_nil_iff.mp free
  rw [Option.toList_eq_nil_iff] at idle
  have phase : spec.phase = s.phase := by
    dsimp only at reading
    rw [idle] at reading
    generalize spec.phase = left, s.phase = right at reading
    cases reading with
    | same => rfl
    | answering stage => rw [stage.eq_of_outside]
  have flights : spec.flights = (s.flights.zip locks.flying).map Prod.fst := by
    rw [← List.forall₂_eq_eq_eq, List.forall₂_map_right_iff]
    rw [List.forall₂_iff_zip] at flying ⊢
    refine ⟨flying.1, fun paired => ?_⟩
    cases flying.2 paired with
    | @mk flight held program stage =>
        have grounded : held = none := by
          have member := (List.of_mem_zip (List.of_mem_zip paired).2).2
          exact Option.toList_eq_nil_iff.mp (List.flatMap_eq_nil_iff.mp none_flying held member)
        rw [grounded] at stage
        rw [stage.eq_of_outside]
  rw [List.map_fst_zip (by exact aligned.le)] at flights
  cases spec
  cases s
  simp_all

/-- A step of the reading goroutine that asks nothing is one where requests are atomic. -/
theorem Session.Beside.plain (beside : Session.Beside env base now spec (s, locks))
    (step : Session.Step srv s trace later) (silent : effects trace = [])
    (kept : later.flights = s.flights)
    : ∃ next, Session.Step srv spec trace next
      ∧ Session.Beside env base now next (later, locks) := by
  obtain ⟨handles, reading, flying⟩ := beside
  dsimp only at handles reading flying
  have alone (none_left : s.flights = []) : spec.flights = [] := by
    rw [none_left, List.zip_nil_left] at flying
    exact List.forall₂_nil_right_iff.mp flying
  cases step with
  | started phase prepared => simp at kept
  | landed inFlight returns => simp [inFlight] at kept
  | advanced => cases silent
  | flew => cases silent
  | closed => cases silent
  | negotiated phase accepted =>
      obtain ⟨free, same⟩ := reading.idle (by simp [phase])
      refine ⟨_, .negotiated (same.trans phase) accepted, handles, ?_, flying⟩
      rw [free]
      exact .same (by simp)
  | refused phase =>
      obtain ⟨free, same⟩ := reading.idle (by simp [phase])
      refine ⟨_, .refused (same.trans phase), handles, ?_, flying⟩
      rw [free]
      exact .same (by simp)
  | early phase empty prepared =>
      obtain ⟨free, same⟩ := reading.idle (by simp [phase])
      rw [← handles] at prepared
      exact ⟨_, .early (same.trans phase) (alone empty) prepared, handles, reading, flying⟩
  | @dispatched typ payload phase empty prepared =>
      obtain ⟨free, same⟩ := reading.idle (by simp [phase])
      rw [← handles] at prepared
      refine ⟨_, .dispatched (same.trans phase) (alone empty) prepared, handles, ?_, flying⟩
      rw [free, handles]
      exact .answering (.outside (dispatch_sectioned typ payload))
  | answered phase =>
      rw [phase] at reading
      obtain ⟨program, same, stage⟩ := reading.of_answering
      obtain ⟨free, rfl⟩ := stage.returned
      rw [Option.map_eq_none_iff] at free
      refine ⟨_, .answered same, rfl, ?_, flying⟩
      rw [free]
      exact .same (by simp)
  | hungUp phase =>
      obtain ⟨free, same⟩ := reading.idle (by simp [phase])
      refine ⟨_, .hungUp (same.trans phase), handles, ?_, flying⟩
      rw [free]
      exact .same (by simp)
  | drained phase empty all =>
      obtain ⟨free, same⟩ := reading.idle (by simp [phase])
      rw [← handles] at all
      refine ⟨_, .drained (same.trans phase) (alone empty) all, handles, ?_, flying⟩
      rw [free]
      exact .same (by simp)
  | returned phase =>
      obtain ⟨free, same⟩ := reading.idle (by simp [phase])
      refine ⟨_, .returned (same.trans phase), rfl, ?_, flying⟩
      rw [free]
      exact .same (by simp)

end Beside

-----------------------------------------------------------------------------------------
-- All sessions beside their atomic ones
-----------------------------------------------------------------------------------------

section Simulation

variable {ι σ : Type} [DecidableEq ι]

/-- Where requests are atomic, the environment is as it was before the request that is at work
under the exclusive lock; the packets are the same.
-/
structure Simulates (env : Environment σ) (spec : Atomic ι σ) (sys : Contended ι σ) : Prop where
  each : ∀ i, Session.Beside env spec.state sys.state (spec.sessions i) (sys.members i)
  settled : (∃ i, ∃ mode ∈ (sys.members i).2.modes, mode.guard = .exclusive)
    ∨ spec.state = sys.state
  packets : packetsOf spec.seen = packetsOf sys.seen

variable {env : Environment σ} {spec : Atomic ι σ} {sys : Contended ι σ} {i : ι}

theorem packetsOf_append {ι : Type} (early late : List (ι × Observation))
    : packetsOf (early ++ late) = packetsOf early ++ packetsOf late :=
  List.filter_append ..

theorem packetsOf_events {ι : Type} (i : ι) (calls : List Event)
    : packetsOf ((calls.map Observation.event).map fun observed => (i, observed)) = [] := by
  simp [packetsOf]

/-- One session and its atomic one have moved on, and no other notices. -/
theorem Simulates.update (sim : Simulates env spec sys)
    {trace abstract : List Observation} {next : Session} {later : Session × Locks}
    {base now : σ} (own : Session.Beside env base now next later)
    (others : (base = spec.state ∧ now = sys.state)
      ∨ ∀ j, j ≠ i → (sys.members j).2.NoneExclusive)
    (settled : (∃ mode ∈ later.2.modes, mode.guard = .exclusive)
      ∨ (∃ j, j ≠ i ∧ ∃ mode ∈ (sys.members j).2.modes, mode.guard = .exclusive) ∨ base = now)
    (packets : packetsOf (abstract.map fun observed => (i, observed))
      = packetsOf (trace.map fun observed => (i, observed)))
    : Simulates env (spec.after i abstract next base) (sys.after i trace later now) where
  each := by
    intro j
    by_cases same : j = i
    · subst same
      simpa [Atomic.after, Contended.after] using own
    simp only [Atomic.after, Contended.after, Function.update_of_ne same]
    rcases others with ⟨rfl, rfl⟩ | shared
    · exact sim.each j
    · exact (sim.each j).elsewhere (shared j same) _ _
  settled := by
    rcases settled with holds | ⟨j, other, holds⟩ | same
    · exact .inl ⟨i, by simpa [Contended.after] using holds⟩
    · exact .inl ⟨j, by simpa [Contended.after, Function.update_of_ne other] using holds⟩
    · exact .inr same
  packets := by
    simp only [Atomic.after, Contended.after, packetsOf_append, sim.packets, packets]

/-- A step that asks nothing is one where requests are atomic. -/
theorem Simulates.plain (sim : Simulates env spec sys)
    {trace : List Observation} {next : Session} {later : Session × Locks}
    (step : Session.Step srv (spec.sessions i) trace next) (silent : effects trace = [])
    (own : Session.Beside env spec.state sys.state next later)
    (modes : ∀ mode ∈ (sys.members i).2.modes, mode ∈ later.2.modes)
    : ∃ after, (after = spec ∨ Atomic.Step srv env spec after)
      ∧ Simulates env after (sys.after i trace later sys.state) := by
  refine ⟨_, .inr (.plain step silent), sim.update own (.inl ⟨rfl, rfl⟩) ?_ rfl⟩
  rcases sim.settled with ⟨j, mode, holds, exclusive⟩ | same
  · by_cases own : j = i
    · subst own
      exact .inl ⟨mode, modes mode holds, exclusive⟩
    · exact .inr (.inl ⟨j, own, mode, holds, exclusive⟩)
  · exact .inr (.inr same)

theorem fsGate_opens {effect : Effect} {guard : Guard}
    (opens : fsGate.opens effect = some guard)
    : ∃ op, effect = .lock op ∧ op.acquires = true := by
  cases effect with
  | lock op =>
      refine ⟨op, rfl, ?_⟩
      by_contra gives
      simp [fsGate, gives] at opens
  | driver call => cases opens
  | randRead => cases opens

section AtWork

variable {α : Type} {held : Option LockMode} {others : List LockMode} {program : Prog α}
  {effect : Effect} {next : effect.Answer → Prog α} {answer : effect.Answer}

omit [DecidableEq ι] in
/-- While a goroutine is at work, no other holds the lock exclusively: it holds the lock
itself, or is given it.
-/
theorem shared_of_stage (apart : Exclusion false sys.members)
    (modes : (sys.members i).2.modes.Perm (held.toList ++ others)) {base now : σ}
    (stage : Stage fsGate env.moves base now (held.map LockMode.guard) program
      (.ask effect next))
    (granted : sys.Grants false [⟨effect, answer⟩])
    : (∀ mode ∈ others, mode.guard = .shared)
      ∧ ∀ j, j ≠ i → (sys.members j).2.NoneExclusive := by
  cases held with
  | some own =>
      have pairs := (modes.pairwise_iff fun together => by
        rwa [LockMode.compatible_comm]).mp (apart.within i)
      refine ⟨fun mode member => ?_, fun j other mode member => ?_⟩
      · exact LockMode.shared_of_compatible (List.rel_of_pairwise_cons pairs member)
      · have mine : own ∈ (sys.members i).2.modes := modes.mem_iff.mpr (by simp)
        exact LockMode.shared_of_compatible
          (apart.between i j other.symm own mine mode member)
  | none =>
      have free (j : ι) : (sys.members j).2.NoneExclusive := by
        intro mode member
        cases stage with
        | outside sectioned =>
            cases sectioned with
            | guarded inSection =>
                obtain ⟨op, rfl, takes⟩ := fsGate_opens inSection.opens
                exact LockMode.shared_of_compatible
                  (granted _ (List.mem_singleton.mpr rfl) op rfl takes j mode member)
      refine ⟨fun mode member => free i mode (modes.mem_iff.mpr ?_), fun j _ => free j⟩
      simpa using member

/-- A goroutine has an effect: where requests are atomic nothing happens yet, or the whole
request does. `put` puts what is left of the request in its place.
-/
theorem Simulates.acts (sim : Simulates env spec sys) (apart : Exclusion false sys.members)
    (modes : (sys.members i).2.modes.Perm (held.toList ++ others))
    (stage : Stage fsGate env.moves spec.state sys.state (held.map LockMode.guard) program
      (.ask effect next))
    (granted : sys.Grants false [⟨effect, answer⟩]) {state : σ}
    (moved : env.moves sys.state ⟨effect, answer⟩ state) {later : Session × Locks}
    (after : later.2.modes.Perm ((discipline.next held effect answer).toList ++ others))
    (put : Prog α → Session) (here : put program = spec.sessions i)
    (beside : ∀ base program', (∀ mode ∈ others, mode.guard = .shared)
      → Stage fsGate env.moves base state
          ((discipline.next held effect answer).map LockMode.guard) program' (next answer)
      → Session.Beside env base state (put program') later)
    (performs : ∀ calls value last, program.Runs calls value
      → Path env.moves spec.state calls last
      → Atomic.Step srv env spec (spec.after i (calls.map .event) (put (.ret value)) last))
    : ∃ next, (next = spec ∨ Atomic.Step srv env spec next)
      ∧ Simulates env next (sys.after i [.event ⟨effect, answer⟩] later state) := by
  obtain ⟨beyond, elsewhere⟩ := shared_of_stage apart modes stage granted
  have settled : held.map LockMode.guard = some .exclusive ∨ spec.state = sys.state := by
    rcases sim.settled with ⟨j, mode, holds, exclusive⟩ | same
    · left
      by_cases own : j = i
      · subst own
        rcases List.mem_append.mp (modes.mem_iff.mp holds) with mine | other
        · rw [Option.mem_toList.mp mine]
          exact congrArg some exclusive
        · rw [beyond mode other] at exclusive
          cases exclusive
      · rw [elsewhere j own mode holds] at exclusive
        cases exclusive
    · exact .inr same
  have silent : packetsOf ([Observation.event ⟨effect, answer⟩].map fun seen => (i, seen)) = [] :=
    rfl
  have outcome := stage.step env.quiet settled moved
  rw [fsGate_after held answer] at outcome
  cases outcome with
  | stays stage settled =>
      have own := beside spec.state program beyond stage
      have unmoved : spec.after i [] (put program) spec.state = spec := by
        simp [Atomic.after, here]
      refine ⟨spec, .inl rfl, ?_⟩
      rw [← unmoved]
      refine sim.update own (.inr elsewhere) ?_ silent.symm
      rcases settled with exclusive | same
      · obtain ⟨mode, taken, exclusive⟩ := Option.map_eq_some_iff.mp exclusive
        refine .inl ⟨mode, after.mem_iff.mpr ?_, exclusive⟩
        exact List.mem_append_left _ (Option.mem_toList.mpr taken)
      · exact .inr (.inr same)
  | @performs calls value runs path stage =>
      have own := beside state (.ret value) beyond stage
      refine ⟨_, .inr (performs calls value state runs path), ?_⟩
      exact sim.update own (.inr elsewhere) (.inr (.inr rfl))
        ((packetsOf_events i calls).trans silent.symm)

end AtWork

omit [DecidableEq ι] in
/-- A request in flight, and the one it stands for. -/
theorem Session.Beside.split {base now : σ} {spec s : Session}
    {reading held : Option LockMode} {before after : List Flight} {flight : Flight}
    {early late : List (Option LockMode)}
    (beside : Session.Beside env base now spec (s, ⟨reading, early ++ held :: late⟩))
    (inFlight : s.flights = before ++ flight :: after) (place : early.length = before.length)
    : ∃ front program back,
        spec.flights = front ++ { flight with rest := program } :: back
        ∧ List.Forall₂ (Flight.Beside env base now) front (before.zip early)
        ∧ Stage fsGate env.moves base now (held.map LockMode.guard) program flight.rest
        ∧ List.Forall₂ (Flight.Beside env base now) back (after.zip late) := by
  have flying := beside.flying
  dsimp only at flying
  rw [inFlight, List.zip_append place.symm, List.zip_cons_cons] at flying
  have first := List.forall₂_take_append _ _ _ flying
  have second := List.forall₂_drop_append _ _ _ flying
  obtain ⟨front, back, own, last, rest⟩ := List.forall₂_cons_right_iff.mp second
  cases own with
  | @mk _ _ program stage =>
      refine ⟨_, program, back, ?_, first, stage, last⟩
      rw [← rest, List.take_append_drop]

/-- The steps of the reading goroutine. -/
theorem Simulates.reads (run : Contended.Run srv false env sys) (sim : Simulates env spec sys)
    {s later : Session} {locks : Locks} {trace : List Observation} {state : σ}
    (here : sys.members i = (s, locks)) (step : Session.Step srv s trace later)
    (kept : later.flights = s.flights) (granted : sys.Grants false (effects trace))
    (path : Path env.moves sys.state (effects trace) state)
    (apart : s.phase.isClosing = true → effects trace ≠ []
      → ∀ j, (sys.members j).2.NoneExclusive)
    : ∃ next, (next = spec ∨ Atomic.Step srv env spec next)
      ∧ Simulates env next (sys.after i trace (later,
        { locks with reading := discipline.after locks.reading (effects trace) }) state) := by
  have beside := sim.each i
  rw [here] at beside
  by_cases silent : effects trace = []
  · rw [silent] at path
    cases path
    obtain ⟨next, atomic, own⟩ := beside.plain step silent kept
    have same : discipline.after locks.reading (effects trace) = locks.reading := by
      rw [silent]
      rfl
    rw [same]
    exact sim.plain atomic silent own (by simp [here])
  cases step with
  | started | early | dispatched | answered | landed | negotiated | refused | hungUp
  | drained | returned => exact absurd rfl silent
  | flew answer inFlight asks =>
      rw [inFlight, List.append_cancel_left_eq, List.cons.injEq] at kept
      have same := congrArg Flight.rest kept.1
      rw [asks] at same
      exact absurd same (ask_ne_branch answer)
  | @advanced typ payload effect next answer phase =>
      cases path with
      | cons moved rest =>
          cases rest
          have reading := beside.reading
          dsimp only at reading
          rw [phase] at reading
          obtain ⟨program, same, stage⟩ := reading.of_answering
          have modes : (sys.members i).2.modes.Perm
              (locks.reading.toList ++ locks.flying.flatMap Option.toList) := by
            rw [here]
            exact .rfl
          refine sim.acts run.exclusion modes stage granted moved .rfl
            (fun program => { spec.sessions i with phase := .answering typ payload program })
            (by rw [← same]) ?_ fun calls value last runs path => .alone same runs path
          intro base program shared stage
          refine ⟨beside.handles, .answering stage, ?_⟩
          exact flights_elsewhere beside.flying shared _ _
  | @closed effect next answer phase =>
      cases path with
      | cons moved rest =>
          cases rest
          have shared := apart (by simp [phase, Phase.isClosing]) silent
          -- Nobody is at work exclusively, so the environment is the same.
          have settled : spec.state = sys.state := by
            refine sim.settled.resolve_left ?_
            rintro ⟨j, mode, holds, exclusive⟩
            rw [shared j mode holds] at exclusive
            cases exclusive
          have guarded := (run.guarded i).1.reading
          rw [here] at guarded
          simp only [phase, Phase.Guarded] at guarded
          obtain ⟨free, ⟨file, rfl⟩, _⟩ := guarded
          have same := (beside.reading.idle (by simp [phase])).2
          have mine := shared i
          rw [here] at mine
          have elsewhere := beside.elsewhere mine state state
          refine ⟨_, .inr (.close answer (same.trans phase) (settled ▸ moved)),
            sim.update ⟨beside.handles, ?_, elsewhere.flying⟩ (.inr fun j _ => shared j)
              (.inr (.inr rfl)) rfl⟩
          rw [free]
          exact .same (by simp)

/-- Every step of sessions that contend for the lock is at most one of those whose requests
are atomic.
-/
theorem Simulates.step (orderly : Contended.Orderly srv env sys) (sim : Simulates env spec sys)
    {trace : List Observation} {later : Contended ι σ}
    (step : Contended.Step srv false env sys i trace later)
    (apart : (sys.members i).1.phase.isClosing = true → effects trace ≠ []
      → ∀ j, (sys.members j).2.NoneExclusive)
    : ∃ next, (next = spec ∨ Atomic.Step srv env spec next) ∧ Simulates env next later := by
  have run := orderly.run
  have beside := sim.each i
  cases step with
  | @mk held _ member state step granted path =>
      generalize here : sys.members i = now at step beside apart
      cases step with
      | reading step kept => exact sim.reads run here step kept granted path apart
      | @started s locks typ payload job phase prepared =>
          cases path
          obtain ⟨free, same⟩ := beside.reading.idle (by simp [phase])
          have handles : (spec.sessions i).handles = s.handles := beside.handles
          have aligned := (run.guarded i).1.flying.length_eq
          rw [here] at aligned
          have outside : Stage fsGate env.moves spec.state sys.state none job.run job.run :=
            .outside (job_sectioned prepared)
          refine sim.plain (.started (same.trans phase) (handles ▸ prepared)) rfl
            ⟨beside.handles, beside.reading, ?_⟩ (by simp [here, Locks.modes])
          rw [List.zip_append aligned]
          exact List.rel_append beside.flying
            (.cons (@Flight.Beside.mk _ _ _ _ ⟨typ, payload, job.span, job.run⟩ none _ outside)
              .nil)
      | @flew s reading before after flight early late held effect next answer inFlight place
          asks =>
          cases path with
          | cons moved rest =>
              cases rest
              obtain ⟨front, program, back, same, first, stage, last⟩ :=
                beside.split inFlight place
              rw [asks] at stage
              have modes := Locks.modes_split reading held early late
              rw [← congrArg (fun now => Locks.modes now.2) here] at modes
              refine sim.acts run.exclusion modes stage granted moved
                (Locks.modes_split ..)
                (fun program =>
                  {
                    spec.sessions i with
                    flights := front ++ { flight with rest := program } :: back
                  })
                (by rw [← same]) ?_ ?_
              · intro base program shared stage
                obtain ⟨shared, afterwards⟩ := List.forall_mem_append.mp shared
                obtain ⟨reader, beforehand⟩ := List.forall_mem_append.mp shared
                refine ⟨beside.handles, beside.reading.elsewhere ?_ _ _, ?_⟩
                · exact fun mode holds => reader mode (Option.mem_toList.mpr holds)
                · rw [List.zip_append place.symm, List.zip_cons_cons]
                  exact List.rel_append (flights_elsewhere first beforehand _ _)
                    (.cons (@Flight.Beside.mk _ _ _ _ { flight with rest := next answer } _ _ stage)
                      (flights_elsewhere last afterwards _ _))
              · exact fun calls value last runs path =>
                  @Atomic.Step.flight _ _ _ _ _ _ _ _ _ { flight with rest := program } _ _ _
                    same runs path
      | @landed s reading before after flight early late held reply inFlight place returns =>
          cases path
          obtain ⟨front, program, back, same, first, stage, last⟩ := beside.split inFlight place
          rw [returns] at stage
          obtain ⟨free, rfl⟩ := stage.returned
          rw [Option.map_eq_none_iff] at free
          subst free
          have landed := @Session.Step.landed srv _ front back { flight with rest := .ret reply }
            reply same rfl
          refine sim.plain landed rfl
            ⟨beside.handles, beside.reading, ?_⟩ (by simp [here, Locks.modes])
          rw [List.zip_append place.symm]
          exact List.rel_append first last

/-- While nobody holds the lock they are the same. -/
theorem Simulates.eq_of_free (sim : Simulates env spec sys)
    (run : Contended.Run srv false env sys) (free : ∀ i, (sys.members i).2.modes = [])
    : spec.state = sys.state ∧ ∀ i, spec.sessions i = (sys.members i).1 := by
  refine ⟨sim.settled.resolve_left ?_, fun i =>
    (sim.each i).eq_of_free (run.guarded i).1.flying.length_eq (free i)⟩
  rintro ⟨i, mode, holds, _⟩
  rw [free i] at holds
  exact absurd holds List.not_mem_nil

/-- Whatever the goroutines of any number of sessions do side by side, they could as well do
with every request at once: without `PathOpsConcurrent`, and as long as no session that ends
closes a file while a request is at work under the exclusive lock, each run has an atomic one
with the same packets, requests and replies, in the same order, that leaves the same handles
and, once nobody holds the lock, the same sessions and the same driver.
-/
theorem requests_are_atomic (orderly : Contended.Orderly srv env sys)
    : ∃ spec : Atomic ι σ,
        Atomic.Run srv env spec
        ∧ packetsOf spec.seen = packetsOf sys.seen
        ∧ (∀ i, (spec.sessions i).handles = (sys.members i).1.handles)
        ∧ ((∀ i, (sys.members i).2.modes = [])
          → spec.state = sys.state ∧ ∀ i, spec.sessions i = (sys.members i).1) := by
  obtain ⟨spec, run, sim⟩ : ∃ spec, Atomic.Run srv env spec ∧ Simulates env spec sys := by
    induction orderly with
    | start state =>
        refine ⟨{ state }, .start state, ⟨fun _ => ⟨rfl, .same (by simp [Session.initial]), .nil⟩,
          .inr rfl, rfl⟩⟩
    | step orderly step apart ih =>
        obtain ⟨spec, run, sim⟩ := ih
        obtain ⟨next, moved, later⟩ := sim.step orderly step apart
        rcases moved with rfl | atomic
        · exact ⟨next, run, later⟩
        · exact ⟨next, run.step atomic, later⟩
  exact ⟨spec, run, sim.packets, fun i => (sim.each i).handles, sim.eq_of_free orderly.run⟩

/-- A session that has asked for the exclusive lock to open a file, beside one that has not
begun.
-/
theorem Contended.Orderly.opening
    : ∃ sys : Contended Bool Unit,
        Contended.Orderly readOnlyServer (fun _ _ _ => True) sys
        ∧ (sys.members true).2.modes = [.exclusive] := by
  have start : @Contended.Orderly Bool Unit _ readOnlyServer (fun _ _ _ => True) { state := () } :=
    .start ()
  have accepted : negotiate readOnlyServer fxpInit [0, 0, 0, 3]
      = .ok { version, extensions := readOnlyServer.extensions } := by
    decide
  have negotiated := start.step (i := true)
    (.mk (.reading (.negotiated rfl accepted) rfl) (by simp [Contended.Grants, effects]) (.nil ()))
    (by simp [effects])
  have asked := negotiated.step (i := true)
    (.mk (.reading (@Session.Step.dispatched _ _ fxpOpen openForReading rfl rfl rfl) rfl)
      (by simp [Contended.Grants, effects]) (.nil ()))
    (by simp [effects])
  have locked := asked.step (i := true)
    (.mk (.reading (.advanced () rfl) rfl)
      (by
        intro event made op asked takes j mode holds
        cases j <;> cases holds)
      (.single rfl))
    (by simp [Contended.after, Phase.isClosing])
  exact ⟨_, locked, rfl⟩

theorem requests_are_atomic_opening
    : ∃ (sys : Contended Bool Unit) (spec : Atomic Bool Unit),
        Contended.Orderly readOnlyServer (fun _ _ _ => True) sys
        ∧ (sys.members true).2.modes = [.exclusive]
        ∧ Atomic.Run readOnlyServer (fun _ _ _ => True) spec
        ∧ packetsOf spec.seen = packetsOf sys.seen := by
  obtain ⟨sys, orderly, holds⟩ := Contended.Orderly.opening
  obtain ⟨spec, run, packets, _⟩ := requests_are_atomic orderly
  exact ⟨sys, spec, orderly, holds, run, packets⟩

end Simulation

end SftpServer.Sftp
