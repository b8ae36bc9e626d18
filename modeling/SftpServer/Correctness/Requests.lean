import SftpServer.Correctness.SessionSafety

/-! Requests from their packets to their replies. What a session has in progress is always
what is left of the program that a packet starts on the table, and each reply is the result
of running such a program, on a table that the session came to.
-/

namespace SftpServer.Sftp

open SftpServer.Foundations
open SftpServer.Wire

/-- Every request in progress is what is left of the program its packet starts on the
table, after effects among `past`.
-/
structure Session.Working (srv : Server) (past : List Event) (s : Session) : Prop where
  alone : ∀ typ payload rest, s.phase = .answering typ payload rest
    → prepare srv s.handles typ payload = (none, none)
      ∧ ∃ calls, calls ⊆ past ∧ (dispatch srv s.handles typ payload).Leaves calls rest
  flights : ∀ flight ∈ s.flights, ∃ job,
    prepare srv s.handles flight.typ flight.payload = (some job, none)
    ∧ ∃ calls, calls ⊆ past ∧ job.run.Leaves calls flight.rest

/-- READDIR and CLOSE are dispatched to their handlers, or refused as malformed. -/
theorem answer_readdir (srv : Server) (t : Handles) (payload : Bytes)
    : answer srv t fxpReaddir payload
      = decoded t (requestID payload) (decodeHandle fxpReaddir payload) (opReaddir srv t) :=
  rfl

theorem answer_close (srv : Server) (t : Handles) (payload : Bytes)
    : answer srv t fxpClose payload
      = decoded t (requestID payload) (decodeHandle fxpClose payload) (opClose t) :=
  rfl

/-- The reply is the result of its request, run on this table with effects among `past`. -/
def AnsweredOn (srv : Server) (past : List Event) (t : Handles) (typ : UInt8)
    (payload : Bytes) (reply : Message) : Prop :=
  ∃ calls later, calls ⊆ past ∧ (answer srv t typ payload).Runs calls (reply, later)

section Steps

variable {srv : Server} {past : List Event} {s later : Session} {trace : List Observation}

theorem Session.Working.mono {more : List Event} (working : s.Working srv past)
    (grows : past ⊆ more)
    : s.Working srv more where
  alone typ payload rest phase := by
    obtain ⟨prepared, calls, seen, leaves⟩ := working.alone typ payload rest phase
    exact ⟨prepared, calls, List.Subset.trans seen grows, leaves⟩
  flights flight member := by
    obtain ⟨job, prepared, calls, seen, leaves⟩ := working.flights flight member
    exact ⟨job, prepared, calls, List.Subset.trans seen grows, leaves⟩

/-- A step keeps it. The table is replaced only when nothing is in flight. -/
theorem Session.Step.working (step : Session.Step srv s trace later)
    (safe : s.Safe srv fun _ => True) (working : s.Working srv past)
    : later.Working srv (past ++ effects trace) := by
  have state := safe.phase
  have before := working.mono (List.subset_append_left past (effects trace))
  -- Where the reading goroutine is left without a request.
  have idle {phase : Phase} (none : ∀ typ payload rest, phase ≠ .answering typ payload rest)
      : Session.Working srv (past ++ effects trace) { s with phase } :=
    ⟨fun typ payload rest same => absurd same (none typ payload rest), before.flights⟩
  have longer {calls : List Event} (seen : calls ⊆ past) (event : Event)
      : calls ++ [event] ⊆ past ++ [event] :=
    List.append_subset.mpr
      ⟨List.Subset.trans seen (List.subset_append_left _ _), List.subset_append_right _ _⟩
  cases step with
  | negotiated phase accepted => exact idle nofun
  | refused phase => exact idle nofun
  | @started typ payload job phase prepared =>
      refine ⟨before.alone, ?_⟩
      intro flight member
      rcases List.mem_append.mp member with old | new
      · exact before.flights flight old
      · rw [List.mem_singleton.mp new]
        exact ⟨job, prepared, [], List.nil_subset _, .start⟩
  | early phase alone prepared => exact before
  | @dispatched typ payload phase alone prepared =>
      refine ⟨?_, before.flights⟩
      intro typ' payload' rest same
      cases same
      exact ⟨prepared, [], List.nil_subset _, .start⟩
  | @advanced typ payload effect next answer phase =>
      refine ⟨?_, before.flights⟩
      intro typ' payload' rest same
      cases same
      obtain ⟨prepared, calls, seen, leaves⟩ := working.alone typ payload _ phase
      exact ⟨prepared, _, longer seen _, leaves.step answer⟩
  | answered phase =>
      rw [phase] at state
      exact ⟨nofun, by simp [state.1]⟩
  | @flew before' after flight effect next answer inFlight asks =>
      refine ⟨before.alone, ?_⟩
      intro other member
      rcases List.mem_append.mp member with first | rest
      · exact before.flights other (by simp [inFlight, first])
      rcases List.mem_cons.mp rest with rfl | last
      · obtain ⟨job, prepared, calls, seen, leaves⟩ :=
          working.flights flight (by simp [inFlight])
        rw [asks] at leaves
        exact ⟨job, prepared, _, longer seen _, leaves.step answer⟩
      · exact before.flights other (by simp [inFlight, last])
  | @landed before' after flight reply inFlight returns =>
      refine ⟨before.alone, ?_⟩
      intro other member
      apply before.flights other
      rw [inFlight, List.mem_append, List.mem_cons]
      rcases List.mem_append.mp member with early | late
      · exact .inl early
      · exact .inr (.inr late)
  | hungUp phase => exact idle nofun
  | drained phase alone all => exact idle nofun
  | closed answer phase => exact idle nofun
  | returned phase =>
      rw [phase] at state
      exact ⟨nofun, by simp [state.1]⟩

/-- A reply in a step is the result of its request on the table before the step. -/
theorem Session.Step.answered_on (step : Session.Step srv s trace later)
    (working : s.Working srv past) {typ : UInt8} {payload : Bytes} {reply : Message}
    (replied : .replied typ payload reply ∈ trace)
    : AnsweredOn srv past s.handles typ payload reply := by
  cases step with
  | early phase alone prepared =>
      simp only [List.mem_cons, List.not_mem_nil, or_false, reduceCtorEq, false_or,
        Observation.replied.injEq] at replied
      obtain ⟨rfl, rfl, rfl⟩ := replied
      refine ⟨[], s.handles, List.nil_subset _, ?_⟩
      rw [answer, prepared]
      exact .ret _
  | @answered typ payload reply handles phase =>
      cases List.mem_singleton.mp replied
      obtain ⟨prepared, calls, seen, leaves⟩ := working.alone typ payload _ phase
      refine ⟨calls, handles, seen, ?_⟩
      rw [answer, prepared]
      exact leaves.returned
  | @landed before after flight reply inFlight returns =>
      cases List.mem_singleton.mp replied
      obtain ⟨job, prepared, calls, seen, leaves⟩ :=
        working.flights flight (by simp [inFlight])
      rw [returns] at leaves
      refine ⟨calls, s.handles, seen, ?_⟩
      rw [answer, prepared]
      have kept : (keeping s.handles job.run).Runs (calls ++ []) (reply, s.handles) :=
        leaves.returned.bind (.ret _)
      simpa using kept
  | negotiated | refused | hungUp | drained | returned => cases replied
  | started | dispatched | advanced | flew | closed => cases List.mem_singleton.mp replied

end Steps

/-- In every state of a session, by induction on its steps. -/
theorem Session.Run.working {srv : Server} {s : Session} {trace : List Observation}
    (run : Session.Run srv Session.initial trace s)
    : s.Working srv (effects trace) := by
  induction run with
  | refl => exact ⟨nofun, by simp [Session.initial]⟩
  | step before step ih =>
      rw [effects_append]
      exact step.working (before.safe (fun _ _ => trivial) (receives_any srv _)).1 ih

/-- Every reply of a session is the result of its request on a table it had come to before, by
induction on its steps.
-/
theorem Session.Run.answered_on {srv : Server} {s : Session} {trace : List Observation}
    (run : Session.Run srv Session.initial trace s) {typ : UInt8} {payload : Bytes}
    {reply : Message} (replied : .replied typ payload reply ∈ trace)
    : ∃ early earlier,
        Session.Run srv Session.initial early earlier
        ∧ AnsweredOn srv (effects trace) earlier.handles typ payload reply := by
  induction run with
  | refl => cases replied
  | @step middle last early late before step ih =>
      have grows : effects early ⊆ effects (early ++ late) := by
        rw [effects_append]
        exact List.subset_append_left _ _
      rcases List.mem_append.mp replied with old | new
      · obtain ⟨trace, earlier, run, calls, handles, seen, runs⟩ := ih old
        exact ⟨trace, earlier, run, calls, handles, List.Subset.trans seen grows, runs⟩
      · obtain ⟨calls, handles, seen, runs⟩ := step.answered_on before.working new
        exact ⟨early, middle, before, calls, handles, List.Subset.trans seen grows, runs⟩

-----------------------------------------------------------------------------------------
-- Requests that run alone
-----------------------------------------------------------------------------------------

section Alone

variable {srv : Server} {s : Session} {trace : List Observation} {typ : UInt8} {payload : Bytes}

/-- While a request runs alone, all that was seen since its packet is its own doing, and the table
is the one its packet found. By induction on the steps.
-/
theorem Session.Run.running_alone (run : Session.Run srv Session.initial trace s)
    {rest : Prog (Message × Handles)} (phase : s.phase = .answering typ payload rest)
    : ∃ early during opening,
        trace = early ++ .received typ payload :: during
        ∧ Session.Run srv Session.initial early opening
        ∧ opening.handles = s.handles
        ∧ (dispatch srv s.handles typ payload).Leaves (effects during) rest := by
  induction run generalizing rest with
  | refl => cases phase
  | @step middle last early late before step ih =>
      have state := (before.safe (fun _ _ => trivial) (receives_any srv _)).1.phase
      cases step with
      | @dispatched typ payload serving alone prepared =>
          cases phase
          exact ⟨early, [], middle, rfl, before, rfl, .start⟩
      | @advanced typ payload effect next answer answering =>
          cases phase
          obtain ⟨front, during, opening, rfl, run, table, leaves⟩ := ih answering
          refine ⟨front, during ++ [.event ⟨effect, answer⟩], opening, by simp, run, table, ?_⟩
          rw [effects_append]
          exact leaves.step answer
      | started serving | early serving => cases serving.symm.trans phase
      | flew _ inFlight | landed inFlight =>
          -- While a request is in flight none runs alone.
          rw [show middle.phase = _ from phase] at state
          exact absurd (inFlight.symm.trans state.1) (by simp)
      | negotiated | refused | answered | hungUp | drained | closed | returned => cases phase

end Alone

end SftpServer.Sftp
