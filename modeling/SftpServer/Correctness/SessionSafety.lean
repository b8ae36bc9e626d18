import SftpServer.Correctness.Dispatching

/-! Safety of a whole session: which calls it can come to make and which tables it can
come to hold, whatever the client sends and the driver answers.
-/

namespace SftpServer.Sftp

open SftpServer.Foundations
open SftpServer.Wire

/-- What is left to do of the reading goroutine's work is sanctioned, and it runs alone. -/
def Phase.Safe (srv : Server) (paths : Bytes → Prop) (flights : List Flight)
    : Phase → Prop
  | .answering _ payload rest =>
      flights = []
      ∧ rest.Asks (Sanctioned srv paths fun _ => True) fun result =>
          replyID result.1 = requestID payload ∧ result.2.WellFormed srv
  | .closing rest =>
      flights = [] ∧ rest.Asks (Sanctioned srv paths fun _ => True) fun _ => True
  | .returned => flights = []
  | .negotiating | .serving | .draining => True

/-- The invariant of a session whose path arguments are limited to `paths`. -/
structure Session.Safe (srv : Server) (paths : Bytes → Prop) (s : Session) : Prop where
  table : s.handles.WellFormed srv
  phase : s.phase.Safe srv paths s.flights
  flights : ∀ flight ∈ s.flights,
    flight.rest.Asks (Steady srv paths (· ∈ s.handles.files))
      (Answers (requestID flight.payload) (replyKind flight.typ flight.payload))

/-- The packets of a trace satisfy `P`. -/
def Receives (P : UInt8 → Bytes → Prop) (trace : List Observation) : Prop :=
  ∀ typ payload, .received typ payload ∈ trace → P typ payload

/-- What was seen of a session: sanctioned effects, and replies under the ids of their
requests.
-/
structure Sound (srv : Server) (paths : Bytes → Prop) (trace : List Observation) : Prop where
  effects : ∀ event ∈ effects trace, Sanctioned srv paths (fun _ => True) event.question
  replies : ∀ typ payload reply, .replied typ payload reply ∈ trace
    → replyID reply = requestID payload

theorem Sound.append {srv : Server} {paths : Bytes → Prop} {early late : List Observation}
    (before : Sound srv paths early) (after : Sound srv paths late)
    : Sound srv paths (early ++ late) where
  effects event member := by
    rw [effects_append] at member
    rcases List.mem_append.mp member with first | second
    · exact before.effects event first
    · exact after.effects event second
  replies typ payload reply member := by
    rcases List.mem_append.mp member with first | second
    · exact before.replies typ payload reply first
    · exact after.replies typ payload reply second

/-- Nothing is seen of a silent step, and a packet alone says nothing. -/
theorem sound_nil (srv : Server) (paths : Bytes → Prop) : Sound srv paths [] :=
  ⟨by simp [effects], by simp⟩

theorem sound_received (srv : Server) (paths : Bytes → Prop) (typ : UInt8) (payload : Bytes)
    : Sound srv paths [.received typ payload] :=
  ⟨by simp [effects], by simp⟩

theorem sound_event {srv : Server} {paths : Bytes → Prop} {event : Event}
    (sanctioned : Sanctioned srv paths (fun _ => True) event.question)
    : Sound srv paths [.event event] :=
  ⟨by simpa [effects] using sanctioned, by simp⟩

theorem sound_replied {srv : Server} {paths : Bytes → Prop} {typ : UInt8} {payload : Bytes}
    {reply : Message} (same : replyID reply = requestID payload)
    : Sound srv paths [.replied typ payload reply] := by
  refine ⟨by simp [effects], ?_⟩
  intro typ' payload' reply' member
  cases List.mem_singleton.mp member
  exact same

/-- The end of a session closes the files of the handles it is given, and asks nothing else. -/
theorem closeAll_asks {P : Effect → Prop} (order : List OpenFile)
    (closes : ∀ h ∈ order, ∀ file, h.file = some file → P (.driver (.fileClose file)))
    : (closeAll order).Asks P fun _ => True := by
  induction order with
  | nil => trivial
  | cons h rest ih =>
      have first : h.closeFile.Asks P fun _ => True := closeFile_asks (closes h (by simp))
      have later := ih fun other member => closes other (List.mem_cons_of_mem h member)
      exact first.seq fun _ => later.seq fun _ => trivial

section Steps

variable {srv : Server} {paths : Bytes → Prop}

/-- While a request is in flight the reading goroutine has nothing to do alone. -/
theorem Phase.Safe.idle {flights : List Flight} {phase : Phase}
    (safe : phase.Safe srv paths flights) (flying : flights ≠ [])
    : phase = .negotiating ∨ phase = .serving ∨ phase = .draining := by
  cases phase with
  | answering => exact absurd safe.1 flying
  | closing => exact absurd safe.1 flying
  | returned => exact absurd safe flying
  | negotiating => exact Or.inl rfl
  | serving => exact Or.inr (Or.inl rfl)
  | draining => exact Or.inr (Or.inr rfl)

theorem Phase.Safe.of_flying {flights : List Flight} {phase : Phase}
    (safe : phase.Safe srv paths flights) (flying : flights ≠ []) (others : List Flight)
    : phase.Safe srv paths others := by
  rcases safe.idle flying with rfl | rfl | rfl <;> trivial

theorem Session.initial_safe : Session.initial.Safe srv paths where
  table := Handles.wellFormed_empty srv
  phase := trivial
  flights := by simp [Session.initial]

variable (within : ∀ path, Canonical path → paths path)

include within in
/-- A step keeps the invariant, and what is seen of it is sound. -/
theorem Session.Step.safe {s later : Session} {trace : List Observation}
    (step : Session.Step srv s trace later) (safe : s.Safe srv paths)
    (packets : Receives (PacketWithin srv paths) trace)
    : later.Safe srv paths ∧ Sound srv paths trace := by
  have state := safe.phase
  cases step with
  | negotiated phase accepted => exact ⟨{ safe with phase := trivial }, sound_nil srv paths⟩
  | refused phase => exact ⟨{ safe with phase := trivial }, sound_nil srv paths⟩
  | @started typ payload job phase prepared =>
      refine ⟨⟨safe.table, by simp [phase, Phase.Safe], ?_⟩,
        sound_received srv paths typ payload⟩
      intro flight member
      rcases List.mem_append.mp member with old | new
      · exact safe.flights flight old
      · rw [List.mem_singleton.mp new]
        cases prepared_of_prepare within safe.table prepared (by simp) with
        | job asks => exact asks
  | @early typ payload reply phase alone prepared =>
      refine ⟨safe, (sound_received srv paths typ payload).append (sound_replied ?_)⟩
      cases prepared_of_prepare within safe.table prepared (by simp) with
      | early answers => exact answers.1
  | @dispatched typ payload phase alone prepared =>
      refine ⟨⟨safe.table, ⟨alone, ?_⟩, safe.flights⟩, sound_received srv paths typ payload⟩
      have packet := packets typ payload (List.mem_singleton.mpr rfl)
      exact (dispatch_contract within safe.table packet).sanctioned within safe.table
  | advanced answer phase =>
      rw [phase] at state
      obtain ⟨alone, asked, later⟩ := state
      exact ⟨⟨safe.table, ⟨alone, later answer⟩, safe.flights⟩, sound_event asked⟩
  | answered phase =>
      rw [phase] at state
      obtain ⟨alone, same, table⟩ := state
      -- The table may change here: nothing is in flight that could refer to the old one.
      exact ⟨⟨table, trivial, by simp [alone]⟩, sound_replied same⟩
  | @flew before after flight effect next answer inFlight asks =>
      have contract := safe.flights flight (by simp [inFlight])
      rw [asks] at contract
      refine ⟨⟨safe.table, state.of_flying (by simp [inFlight]) _, ?_⟩,
        sound_event (Steady.sanctioned contract.1)⟩
      -- The flight goes on under its contract; the others, and the table, are as before.
      intro other member
      rcases List.mem_append.mp member with early | rest
      · exact safe.flights other (by simp [inFlight, early])
      rcases List.mem_cons.mp rest with rfl | late
      · exact contract.2 answer
      · exact safe.flights other (by simp [inFlight, late])
  | @landed before after flight reply inFlight returns =>
      have contract := safe.flights flight (by simp [inFlight])
      rw [returns] at contract
      refine ⟨⟨safe.table, state.of_flying (by simp [inFlight]) _, ?_⟩,
        sound_replied contract.1⟩
      intro other member
      apply safe.flights other
      rw [inFlight, List.mem_append, List.mem_cons]
      rcases List.mem_append.mp member with early | late
      · exact Or.inl early
      · exact Or.inr (Or.inr late)
  | hungUp phase => exact ⟨{ safe with phase := trivial }, sound_nil srv paths⟩
  | drained phase alone all =>
      refine ⟨⟨safe.table, ⟨alone, ?_⟩, safe.flights⟩, sound_nil srv paths⟩
      exact closeAll_asks _ fun _ _ file _ => Sanctioned.close file
  | closed answer phase =>
      rw [phase] at state
      obtain ⟨alone, asked, later⟩ := state
      exact ⟨⟨safe.table, ⟨alone, later answer⟩, safe.flights⟩, sound_event asked⟩
  | returned phase =>
      rw [phase] at state
      exact ⟨⟨Handles.wellFormed_empty srv, state.1, by simp [state.1]⟩, sound_nil srv paths⟩

include within in
/-- A run keeps the invariant, and all that is seen of it is sound, by induction on its
steps.
-/
theorem Session.Run.safe {s : Session} {trace : List Observation}
    (run : Session.Run srv Session.initial trace s)
    (packets : Receives (PacketWithin srv paths) trace)
    : s.Safe srv paths ∧ Sound srv paths trace := by
  induction run with
  | refl => exact ⟨Session.initial_safe, sound_nil srv paths⟩
  | step _ step ih =>
      have earlier := ih fun typ payload member =>
        packets typ payload (List.mem_append_left _ member)
      have later := step.safe within earlier.1 fun typ payload member =>
        packets typ payload (List.mem_append_right _ member)
      exact ⟨later.1, earlier.2.append later.2⟩

end Steps

/-- Without a limit on paths, every packet may be received. -/
theorem receives_any (srv : Server) (trace : List Observation)
    : Receives (PacketWithin srv fun _ => True) trace :=
  fun _ _ _ _ _ _ _ => trivial

/-- The table of every state a session reaches is well-formed. -/
theorem Session.Run.wellFormed {srv : Server} {s : Session} {trace : List Observation}
    (run : Session.Run srv Session.initial trace s)
    : s.handles.WellFormed srv :=
  (run.safe (fun _ _ => trivial) (receives_any srv trace)).1.table

/-- A read-only export never asks its driver for a mutation, whatever the client sends, the
driver answers and the run ends with.
-/
theorem readOnly_never_mutates {srv : Server} {s : Session} {trace : List Observation}
    (run : Session.Run srv Session.initial trace s) (readOnly : srv.ro = true)
    : ∀ event ∈ effects trace, ∀ call, event.question = .driver call
        → call.mutates = false := by
  intro event member call asked
  have sound := (run.safe (fun _ _ => trivial) (receives_any srv trace)).2
  have sanctioned := sound.effects event member
  rw [asked] at sanctioned
  exact sanctioned.readOnly readOnly

/-- A read-only export of a driver with every capability. -/
def readOnlyServer : Server where
  opener := true
  symlinker := true
  truncater := true
  metadataSetter := true
  ro := true

/-- OPEN of `/a` for reading. -/
def openForReading : Bytes := [0, 0, 0, 1, 0, 0, 0, 2, 0x2f, 0x61, 0, 0, 0, 1, 0, 0, 0, 0]

/-- A session that has opened a file for reading. -/
theorem Session.Run.reading
    : ∃ calls s,
        Session.Run readOnlyServer Session.initial
          (.received fxpOpen openForReading :: calls) s
        ∧ s.handles.files.length = 1 :=
  ⟨_, _, (Session.Run.negotiating readOnlyServer).trans (.dispatching _ _ rfl rfl rfl
    (Interaction.interpret_runs (fun (_ : Unit) _ => (default, ())) () _)), rfl⟩

theorem readOnly_never_mutates_reading
    : ∃ trace s,
        Session.Run readOnlyServer Session.initial trace s
        ∧ s.handles.files.length = 1
        ∧ ∀ event ∈ effects trace, ∀ call, event.question = .driver call
            → call.mutates = false := by
  obtain ⟨calls, s, run, opened⟩ := Session.Run.reading
  exact ⟨_, s, run, opened, readOnly_never_mutates run rfl⟩

/-- A STATUS that reports a failure: neither OK nor the end of a file. -/
def fails : Message → Bool
  | .statusReply m => m.code != statusOK && m.code != statusEOF
  | _ => false

theorem fails_of_resolve {id : UInt32} {p : Bytes} {bad : Message}
    (refused : resolve id p = .error bad)
    : fails bad = true := by
  rw [refusal_of_resolve refused]
  rfl

/-- At a full table OPEN is refused before the driver is asked anything. -/
theorem opOpen_full {srv : Server} {t : Handles} (full : t.full = true) (m : OpenRequest)
    : ∃ reply, opOpen srv t m = .ret (reply, t) ∧ fails reply = true := by
  unfold opOpen
  cases resolved : resolve m.id m.path with
  | error bad => exact ⟨bad, rfl, fails_of_resolve resolved⟩
  | ok path =>
      dsimp only
      split
      · exact ⟨_, rfl, rfl⟩
      · exact ⟨_, rfl, rfl⟩

theorem opOpendir_full {t : Handles} (full : t.full = true) (m : PathRequest)
    : ∃ reply, opOpendir t m = .ret (reply, t) ∧ fails reply = true := by
  unfold opOpendir
  cases resolved : resolve m.id m.path with
  | error bad => exact ⟨bad, rfl, fails_of_resolve resolved⟩
  | ok path =>
      dsimp only
      rw [if_pos full]
      exact ⟨_, rfl, rfl⟩

theorem decoded_refused {α : Type} {t : Handles} {id : UInt32} {request : Except WireError α}
    {op : α → Prog (Message × Handles)}
    (refused : ∀ m, ∃ reply, op m = .ret (reply, t) ∧ fails reply = true)
    : ∃ reply, decoded t id request op = .ret (reply, t) ∧ fails reply = true := by
  cases request with
  | error err => exact ⟨_, rfl, rfl⟩
  | ok m => exact refused m

/-- An OPEN or OPENDIR that finds the table full. -/
theorem answer_full {srv : Server} {t : Handles} (full : t.full = true) {typ : UInt8}
    (opens : typ = fxpOpen ∨ typ = fxpOpendir) (payload : Bytes)
    : ∃ reply, answer srv t typ payload = .ret (reply, t) ∧ fails reply = true := by
  rcases opens with rfl | rfl
  · exact decoded_refused (opOpen_full full)
  · exact decoded_refused (opOpendir_full full)

/-- Every reachable table is well-formed, and a full one answers an OPEN or OPENDIR with a
failure, without a call and without a change.
-/
theorem handle_table_invariant {srv : Server} {s : Session} {trace : List Observation}
    (run : Session.Run srv Session.initial trace s)
    : s.handles.WellFormed srv
      ∧ ∀ typ payload,
          typ = fxpOpen ∨ typ = fxpOpendir
          → s.handles.full = true
          → ∀ calls result,
              (answer srv s.handles typ payload).Runs calls result
              → calls = [] ∧ result.2 = s.handles ∧ fails result.1 = true := by
  refine ⟨run.wellFormed, ?_⟩
  intro typ payload opens full calls result runs
  obtain ⟨reply, refused, failure⟩ := answer_full full opens payload
  rw [refused, Interaction.runs_ret_iff] at runs
  obtain ⟨noCalls, rfl⟩ := runs
  exact ⟨noCalls, rfl, failure⟩

theorem handle_table_invariant_reading
    : ∃ trace s,
        Session.Run readOnlyServer Session.initial trace s
        ∧ s.handles.files.length = 1
        ∧ s.handles.WellFormed readOnlyServer := by
  obtain ⟨calls, s, run, opened⟩ := Session.Run.reading
  exact ⟨_, s, run, opened, (handle_table_invariant run).1⟩

end SftpServer.Sftp
