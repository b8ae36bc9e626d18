import SftpServer.Correctness.SessionSafety

/-! Replies: each request is answered once, under its own id and with a reply of a kind it
allows. The kinds hold for every driver but one that answers `Stat` with `(nil, nil)`, which
an OPEN reports as a success without a handle.
-/

namespace SftpServer.Sftp

open SftpServer.Foundations
open SftpServer.Wire

/-- A reply of a kind the request allows: its own, or a STATUS that is not OK. -/
def replyAllowed (typ : UInt8) (payload : Bytes) (reply : Message) : Bool :=
  replyKind typ payload reply || refuses reply

-----------------------------------------------------------------------------------------
-- The kind of every reply
-----------------------------------------------------------------------------------------

/-- What the driver answered to the first `Stat` among these calls. -/
def firstStat (calls : List Event) : Option (Except DriverError (Option Stat)) :=
  calls.findSome? fun
    | ⟨.driver (.stat _), answer⟩ => some answer
    | _ => none

/-- An OPEN without `SSH_FXF_CREAT` whose `Stat` was answered with `(nil, nil)`. -/
def OpenedNil (m : OpenRequest) (calls : List Event) : Prop :=
  m.pflags &&& fxfCreat = 0 ∧ firstStat calls = some (.ok none)

/-- Every branch of OPEN after its `Stat` ends as `OpenAnswers` says. -/
theorem openAnswers_of_runs {srv : Server} {t : Handles} (wellFormed : t.WellFormed srv)
    {m : OpenRequest} {path : Bytes} (canonical : Canonical path)
    (permitted : (wantsWrite m.pflags && srv.ro) = false) (room : t.full = false)
    {st : Option Stat} {statErr : Option DriverError} {calls : List Event}
    {result : Message × Handles}
    (runs : (openStated srv t m path st statErr).Runs calls result)
    : OpenAnswers srv t m st statErr result := by
  have asks : (openStated srv t m path st statErr).Asks
      (Sanctioned srv (fun _ => True) fun _ => True) (OpenAnswers srv t m st statErr) :=
    openStated_asks (fun _ _ => trivial) wellFormed m canonical st statErr permitted room
  exact (asks.of_runs runs).2

/-- OPEN answers with a handle or a refusal, unless its `Stat` was nil. -/
theorem opOpen_answers_iff {srv : Server} {t : Handles} (wellFormed : t.WellFormed srv)
    {m : OpenRequest} {calls : List Event} {result : Message × Handles}
    (runs : (opOpen srv t m).Runs calls result)
    : replyID result.1 = m.id
      ∧ ((isHandle result.1 || refuses result.1) = true ↔ ¬OpenedNil m calls) := by
  -- A request refused before its `Stat` has asked nothing.
  have refused {reply : Message} (answers : Answers m.id isHandle reply)
      (same : calls = [] ∧ result = (reply, t))
      : replyID result.1 = m.id
        ∧ ((isHandle result.1 || refuses result.1) = true ↔ ¬OpenedNil m calls) := by
    obtain ⟨rfl, rfl⟩ := same
    refine ⟨answers.1, iff_of_true answers.2 ?_⟩
    intro held
    obtain ⟨_, unknown⟩ := held
    simp [firstStat] at unknown
  unfold opOpen at runs
  cases resolved : resolve m.id m.path with
  | error bad =>
      rw [resolved] at runs
      exact refused (answers_of_resolve _ resolved) (Interaction.runs_ret_iff.mp runs)
  | ok path =>
      simp only [resolved] at runs
      split at runs
      · exact refused (answers_refusal _ _ _ (by decide)) (Interaction.runs_ret_iff.mp runs)
      rename_i permitted
      split at runs
      · exact refused (answers_refusal _ _ _ (by decide)) (Interaction.runs_ret_iff.mp runs)
      rename_i room
      obtain ⟨inner, rfl, body⟩ := runs_withLock runs
      have permitted : (wantsWrite m.pflags && srv.ro) = false := by simpa using permitted
      have room : t.full = false := by simpa using room
      have canonical : Canonical path := canonical_of_resolve resolved
      obtain ⟨answer, tail, rfl, rest⟩ := Interaction.runs_call_iff.mp body
      -- The first event is the lock and the second this `Stat`, so it is the first `Stat`.
      rcases answer with err | st
      · obtain ⟨_, _, answers⟩ := openAnswers_of_runs wellFormed canonical permitted room rest
        have known : ¬NilStat m none (some err) := by simp [NilStat]
        refine ⟨(answers known).1, iff_of_true (answers known).2 ?_⟩
        intro held
        obtain ⟨_, unknown⟩ := held
        simp [firstStat] at unknown
      · obtain ⟨_, missing, answers⟩ :=
          openAnswers_of_runs wellFormed canonical permitted room rest
        by_cases unknown : NilStat m st none
        · rw [missing unknown]
          obtain ⟨rfl, _, noCreate⟩ := unknown
          exact ⟨rfl, iff_of_false (by simp [isHandle, refuses, status])
            (not_not.mpr ⟨noCreate, rfl⟩)⟩
        · refine ⟨(answers unknown).1, iff_of_true (answers unknown).2 ?_⟩
          intro held
          obtain ⟨noCreate, nil⟩ := held
          have absent : st = none := by simpa [firstStat] using nil
          exact unknown ⟨absent, rfl, noCreate⟩

/-- Every request but OPEN is answered under its id, with its own kind or a refusal. -/
theorem answer_answers {srv : Server} {t : Handles} (wellFormed : t.WellFormed srv)
    {typ : UInt8} (other : typ ≠ fxpOpen) (payload : Bytes)
    : (answer srv t typ payload).Asks (fun _ => True) fun result =>
        Answers (requestID payload) (replyKind typ payload) result.1 := by
  unfold answer
  have within : ∀ path, Canonical path → (fun _ : Bytes => True) path := fun _ _ => trivial
  rcases prepare_cases within wellFormed typ payload with barrier | prepared
  · rw [barrier]
    have contract : Contract srv t (fun _ => True) payload typ (dispatch srv t typ payload) :=
      dispatch_contract within wellFormed fun _ _ _ _ => trivial
    generalize dispatch srv t typ payload = program at contract
    cases contract with
    | steady asks => exact asks.mono (fun _ _ => trivial) fun _ holds => holds.1
    | opens decodes => exact absurd rfl other
    | @closes m decodes =>
        have asks : (opClose t m).Asks (Sanctioned srv (fun _ => True) fun _ => True) _ :=
          opClose_asks wellFormed m
        rw [← decodeHandle_id decodes]
        exact asks.mono (fun _ _ => trivial) fun _ holds => holds.1
    | opendirs decodes =>
        rw [← decodePath_id decodes]
        exact (opOpendir_asks within wellFormed _).mono (fun _ _ => trivial)
          fun _ holds => holds.1
    | @readdirs m decodes =>
        have asks : (opReaddir srv t m).Asks (Steady srv (fun _ => True) (· ∈ t.files)) _ :=
          opReaddir_asks within wellFormed m
        rw [← decodeHandle_id decodes]
        exact asks.mono (fun _ _ => trivial) fun _ holds => holds.1
  · generalize prepare srv t typ payload = outcome at prepared
    cases prepared with
    | job asks => exact (keeping_asks asks).mono (fun _ _ => trivial) fun _ holds => holds.1
    | early answers => exact answers

/-- OPEN is dispatched to its handler, or refused as malformed. -/
theorem answer_open (srv : Server) (t : Handles) (payload : Bytes)
    : answer srv t fxpOpen payload
      = decoded t (requestID payload) (decodeOpen payload) (opOpen srv t) :=
  rfl

/-- From every reachable state, the reply to the next packet is of a kind the packet allows,
whatever the driver answers, exactly if it is not an OPEN without `SSH_FXF_CREAT` whose
`Stat` was answered with `(nil, nil)`.
-/
theorem reply_allowed_iff {srv : Server} {s : Session} {trace : List Observation}
    (run : Session.Run srv Session.initial trace s) {typ : UInt8} {payload : Bytes}
    {calls : List Event} {result : Message × Handles}
    (runs : (answer srv s.handles typ payload).Runs calls result)
    : replyAllowed typ payload result.1 = true
      ↔ ¬∃ m, typ = fxpOpen ∧ decodeOpen payload = .ok m ∧ OpenedNil m calls := by
  by_cases opens : typ = fxpOpen
  · subst opens
    rw [answer_open] at runs
    cases decodes : decodeOpen payload with
    | error err =>
        rw [decodes] at runs
        obtain ⟨_, rfl⟩ := Interaction.runs_ret_iff.mp runs
        exact iff_of_true rfl (by simp)
    | ok m =>
        rw [decodes] at runs
        have allowed := (opOpen_answers_iff run.wellFormed runs).2
        refine allowed.trans (not_congr ?_)
        simp
  · have answers := ((answer_answers run.wellFormed opens payload).of_runs runs).2
    exact iff_of_true answers.2 fun ⟨_, same, _⟩ => opens same

/-- A driver on which every call succeeds, except that `Stat` returns `(nil, nil)`. -/
def nilStatDriver : (effect : Effect) → effect.Answer
  | .driver (.stat _) => (.ok none : Except DriverError (Option Stat))
  | _ => default

/-- A fresh session answers an OPEN for reading with STATUS OK when `Stat` returns nil. -/
theorem open_nil_stat_answers_ok
    : Session.Run readOnlyServer Session.initial [] { Session.initial with phase := .serving }
      ∧ ∃ calls,
          (answer readOnlyServer ∅ fxpOpen openForReading).Runs calls (status 1 statusOK [], ∅)
          ∧ replyAllowed fxpOpen openForReading (status 1 statusOK []) = false :=
  ⟨.negotiating readOnlyServer, _,
    Interaction.interpret_runs (fun (_ : Unit) effect => (nilStatDriver effect, ())) () _, rfl⟩

/-- With a driver that finds the file, the same OPEN gets a handle. -/
theorem reply_allowed_reading
    : ∃ calls result,
        (answer readOnlyServer ∅ fxpOpen openForReading).Runs calls result
        ∧ isHandle result.1 = true
        ∧ replyAllowed fxpOpen openForReading result.1 = true := by
  refine ⟨_, _, Interaction.interpret_runs (fun (_ : Unit) _ => (default, ())) () _, rfl, ?_⟩
  refine (reply_allowed_iff (.negotiating readOnlyServer)
    (Interaction.interpret_runs (fun (_ : Unit) _ => (default, ())) () _)).mpr ?_
  intro held
  obtain ⟨m, _, _, _, nil⟩ := held
  cases nil

-----------------------------------------------------------------------------------------
-- Malformed requests are answered at once
-----------------------------------------------------------------------------------------

/-- The error of the decoder that a known request is read with. -/
def requestError (typ : UInt8) (payload : Bytes) : Option WireError :=
  if typ = fxpOpen then errorOf (decodeOpen payload)
  else if typ = fxpClose ∨ typ = fxpFstat ∨ typ = fxpReaddir then
    errorOf (decodeHandle typ payload)
  else if typ = fxpLstat ∨ typ = fxpStat ∨ typ = fxpOpendir ∨ typ = fxpRemove
      ∨ typ = fxpRmdir ∨ typ = fxpRealpath ∨ typ = fxpReadlink then
    errorOf (decodePath typ payload)
  else if typ = fxpSetstat ∨ typ = fxpMkdir then errorOf (decodeSetstat typ payload)
  else if typ = fxpFsetstat then errorOf (decodeFsetstat payload)
  else if typ = fxpRename then errorOf (decodeRename payload)
  else if typ = fxpSymlink then errorOf (decodeSymlink payload)
  else if typ = fxpExtended then errorOf (decodeExtended payload)
  else if typ = fxpRead then errorOf (decodeRead payload)
  else if typ = fxpWrite then errorOf (decodeWrite payload)
  else none
where
  errorOf {α : Type} : Except WireError α → Option WireError
    | .error err => some err
    | .ok _ => none

/-- One comparison of a switch, on the side of what it returns. -/
theorem ite_some_elim {α : Type} {goal c : Prop} [Decidable c] {chosen other : Option α}
    {value : α} (returns : (if c then chosen else other) = some value)
    (yes : c → chosen = some value → goal) (no : other = some value → goal)
    : goal := by
  by_cases holds : c
  · rw [if_pos holds] at returns
    exact yes holds returns
  · rw [if_neg holds] at returns
    exact no returns

theorem answer_of_early {srv : Server} {t : Handles} {typ : UInt8} {payload : Bytes}
    {reply : Message} (prepared : prepare srv t typ payload = (none, some reply))
    : answer srv t typ payload = .ret (reply, t) := by
  rw [answer, prepared]
  rfl

theorem error_of_errorOf {α : Type} {request : Except WireError α} {err : WireError}
    (rejected : requestError.errorOf request = some err)
    : request = .error err := by
  cases request with
  | error other => rw [Option.some.inj rejected]
  | ok m => cases rejected

/-- A known request whose payload its decoder rejects is answered at once. -/
theorem answer_malformed {srv : Server} {t : Handles} {typ : UInt8} {payload : Bytes}
    {err : WireError} (rejected : requestError typ payload = some err)
    : answer srv t typ payload = .ret (badMessage (requestID payload) err, t) := by
  have refused {α : Type} {request : Except WireError α} {op : α → Prog (Message × Handles)}
      (rejected : requestError.errorOf request = some err)
      : decoded t (requestID payload) request op
        = .ret (badMessage (requestID payload) err, t) := by
    rw [error_of_errorOf rejected]
    rfl
  refine ite_some_elim rejected (fun same rejected => ?_) fun rejected => ?_
  · subst same
    exact refused rejected
  refine ite_some_elim rejected (fun kind rejected => ?_) fun rejected => ?_
  · rcases kind with rfl | rfl | rfl <;> exact refused rejected
  refine ite_some_elim rejected (fun kind rejected => ?_) fun rejected => ?_
  · rcases kind with rfl | rfl | rfl | rfl | rfl | rfl | rfl <;> exact refused rejected
  refine ite_some_elim rejected (fun kind rejected => ?_) fun rejected => ?_
  · rcases kind with rfl | rfl <;> exact refused rejected
  refine ite_some_elim rejected (fun same rejected => ?_) fun rejected => ?_
  · subst same
    exact refused rejected
  refine ite_some_elim rejected (fun same rejected => ?_) fun rejected => ?_
  · subst same
    exact refused rejected
  refine ite_some_elim rejected (fun same rejected => ?_) fun rejected => ?_
  · subst same
    exact refused rejected
  refine ite_some_elim rejected (fun same rejected => ?_) fun rejected => ?_
  · subst same
    exact refused rejected
  -- READ and WRITE are decoded by `prepare`, before any dispatch.
  refine ite_some_elim rejected (fun same rejected => ?_) fun rejected => ?_
  · subst same
    apply answer_of_early
    rw [prepare_read, error_of_errorOf rejected]
  refine ite_some_elim rejected (fun same rejected => ?_) fun rejected => ?_
  · subst same
    apply answer_of_early
    rw [prepare_write, error_of_errorOf rejected]
  · cases rejected

-----------------------------------------------------------------------------------------
-- Requests are conserved: received is replied to or still pending
-----------------------------------------------------------------------------------------

/-- The requests received, in order. -/
def receivedOf (trace : List Observation) : List (UInt8 × Bytes) :=
  trace.filterMap fun
    | .received typ payload => some (typ, payload)
    | _ => none

/-- The requests replied to, in the order of the replies. -/
def repliedOf (trace : List Observation) : List (UInt8 × Bytes) :=
  trace.filterMap fun
    | .replied typ payload _ => some (typ, payload)
    | _ => none

/-- The request that runs alone. -/
def Phase.pending : Phase → List (UInt8 × Bytes)
  | .answering typ payload _ => [(typ, payload)]
  | .negotiating | .serving | .draining | .closing _ | .returned => []

/-- The requests a session has not replied to yet. -/
def Session.pending (s : Session) : List (UInt8 × Bytes) :=
  s.phase.pending ++ s.flights.map fun flight => (flight.typ, flight.payload)

/-- A step receives what it leaves pending or replies to, and loses nothing. -/
theorem Session.Step.conserves {srv : Server} {s later : Session}
    {trace : List Observation} (step : Session.Step srv s trace later)
    : (receivedOf trace ++ s.pending).Perm (repliedOf trace ++ later.pending) := by
  -- Most steps take no packet, send none, and leave what is pending as it is.
  have quiet (received : receivedOf trace = []) (replied : repliedOf trace = [])
      (same : later.pending = s.pending)
      : (receivedOf trace ++ s.pending).Perm (repliedOf trace ++ later.pending) := by
    rw [received, replied, same]
  cases step with
  | negotiated phase accepted =>
      exact quiet rfl rfl (by simp only [pending, phase, Phase.pending])
  | refused phase => exact quiet rfl rfl (by simp only [pending, phase, Phase.pending])
  | started phase prepared =>
      simp only [receivedOf, repliedOf, pending, phase, Phase.pending, List.filterMap_cons,
        List.filterMap_nil, List.nil_append, List.map_append, List.map_cons, List.map_nil,
        List.singleton_append]
      exact (List.perm_append_singleton _ _).symm
  | early phase alone prepared => exact .rfl
  | dispatched phase alone prepared =>
      simp only [pending, phase, Phase.pending]
      exact .rfl
  | advanced answer phase => exact quiet rfl rfl (by simp only [pending, phase, Phase.pending])
  | answered phase =>
      simp only [pending, phase, Phase.pending]
      exact .rfl
  | flew answer inFlight asks =>
      exact quiet rfl rfl (by simp only [pending, inFlight, List.map_append, List.map_cons])
  | @landed before after flight reply inFlight returns =>
      simp only [receivedOf, repliedOf, pending, inFlight, List.filterMap_cons,
        List.filterMap_nil, List.nil_append, List.map_append, List.map_cons,
        List.singleton_append, ← List.append_assoc]
      exact List.perm_middle
  | hungUp phase => exact quiet rfl rfl (by simp only [pending, phase, Phase.pending])
  | drained phase alone all => exact quiet rfl rfl (by simp only [pending, phase, Phase.pending])
  | closed answer phase => exact quiet rfl rfl (by simp only [pending, phase, Phase.pending])
  | returned phase => exact quiet rfl rfl (by simp only [pending, phase, Phase.pending])

/-- In every run, each request received is replied to once or still pending, by induction
on the steps.
-/
theorem Session.Run.conserves {srv : Server} {s : Session} {trace : List Observation}
    (run : Session.Run srv Session.initial trace s)
    : (receivedOf trace).Perm (repliedOf trace ++ s.pending) := by
  induction run with
  | refl => exact .rfl
  | @step middle last early late _ step ih =>
      have received : receivedOf (early ++ late) = receivedOf early ++ receivedOf late :=
        List.filterMap_append
      have replied : repliedOf (early ++ late) = repliedOf early ++ repliedOf late :=
        List.filterMap_append
      rw [received, replied, List.append_assoc]
      calc List.Perm (receivedOf early ++ receivedOf late)
            (repliedOf early ++ middle.pending ++ receivedOf late) := ih.append_right _
        List.Perm _ (repliedOf early ++ (receivedOf late ++ middle.pending)) := by
          rw [List.append_assoc]
          exact List.perm_append_comm.append_left _
        List.Perm _ (repliedOf early ++ (repliedOf late ++ last.pending)) :=
          step.conserves.append_left _

/-- Every request is answered once and under its own id, and a malformed one changes
nothing: along every run the requests received are those replied to and those still
pending; from every reachable state the next packet is a job, a reply or a barrier, comes
to a reply under its id, and if its decoder rejects it, to BAD_MESSAGE without a call.
-/
theorem answered_once_under_own_id {srv : Server} {s : Session} {trace : List Observation}
    (run : Session.Run srv Session.initial trace s)
    : (receivedOf trace).Perm (repliedOf trace ++ s.pending)
      ∧ (∀ typ payload reply, .replied typ payload reply ∈ trace
          → replyID reply = requestID payload)
      ∧ ∀ typ payload,
          ((prepare srv s.handles typ payload).1 = none
            ∨ (prepare srv s.handles typ payload).2 = none)
          ∧ (∃ calls result, (answer srv s.handles typ payload).Runs calls result)
          ∧ (∀ calls result, (answer srv s.handles typ payload).Runs calls result
              → replyID result.1 = requestID payload)
          ∧ ∀ err, requestError typ payload = some err
              → ∃ msg, answer srv s.handles typ payload
                  = .ret (status (requestID payload) statusBadMessage msg, s.handles) := by
  have within : ∀ path, Canonical path → (fun _ : Bytes => True) path := fun _ _ => trivial
  refine ⟨run.conserves, (run.safe within (receives_any srv trace)).2.replies, ?_⟩
  intro typ payload
  refine ⟨?_, Interaction.exists_run _, ?_, fun err rejected => ⟨_, answer_malformed rejected⟩⟩
  -- A job and a reply at once would be two answers to one packet.
  · rcases prepare_cases within run.wellFormed typ payload with barrier | prepared
    · exact Or.inl (by rw [barrier])
    · generalize prepare srv s.handles typ payload = outcome at prepared
      cases prepared with
      | job asks => exact Or.inr rfl
      | early answers => exact Or.inl rfl
  · intro calls result runs
    by_cases opens : typ = fxpOpen
    · subst opens
      rw [answer_open] at runs
      cases decodes : decodeOpen payload with
      | error err =>
          rw [decodes] at runs
          obtain ⟨_, rfl⟩ := Interaction.runs_ret_iff.mp runs
          rfl
      | ok m =>
          rw [decodes] at runs
          rw [(opOpen_answers_iff run.wellFormed runs).1]
          exact decodeOpen_id decodes
    · exact ((answer_answers run.wellFormed opens payload).of_runs runs).2.1

/-- A session that has opened a file has received one request and replied to it. -/
theorem answered_once_reading
    : ∃ trace s,
        Session.Run readOnlyServer Session.initial trace s
        ∧ receivedOf trace ≠ []
        ∧ (receivedOf trace).Perm (repliedOf trace ++ s.pending) := by
  obtain ⟨calls, s, run, _⟩ := Session.Run.reading
  exact ⟨_, s, run, by simp [receivedOf], (answered_once_under_own_id run).1⟩

end SftpServer.Sftp
