import SftpServer.Concurrency.Atomicity
import SftpServer.Correctness.ObjectFiles
import SftpServer.Correctness.PacketServing
import SftpServer.Foundations.AtomicObject

/-! The sessions of a server are a service of files that serves each request at once. Whatever
their goroutines do side by side, every request is served at one time between its packet and
its reply, from the files as the requests served before have left them.
-/

namespace SftpServer.Sftp

open SftpServer.Foundations
open SftpServer.Wire

-----------------------------------------------------------------------------------------
-- The object
-----------------------------------------------------------------------------------------

/-- The files, and the handles of each client with those of them that are adrift. -/
structure FileService (ι : Type) where
  contents : Contents
  grants : ι → Grants
  adrift : ι → Adrift

namespace FileService

variable {ι : Type}

/-- A packet of one client is served. The handles of the others stay as they are, but those on
files that are moved or removed may be cast adrift.
-/
structure Serving (srv : Server) (follows : Bool) (i : ι) (service : FileService ι)
    (packet : UInt8 × Bytes) (reply : Message) (later : FileService ι) : Prop where
  own : Serves srv service.contents (service.grants i) (service.adrift i) packet.1 packet.2 reply
    later.contents (later.grants i)
  others : ∀ j, j ≠ i → later.grants j = service.grants j
  anchored : later.adrift i
    = (Command.ofPacket (service.grants i) packet.1 packet.2).anchors
        ((Command.ofPacket (service.grants i) packet.1 packet.2).casts follows (service.grants i)
          (service.adrift i))
        reply
  cast : ∀ j, j ≠ i → later.adrift j
    = (Command.ofPacket (service.grants i) packet.1 packet.2).casts follows (service.grants j)
        (service.adrift j)

/-- A client hangs up, and has no handles any more. -/
structure Leaving (i : ι) (service later : FileService ι) : Prop where
  contents : later.contents = service.contents
  own : later.grants i = fun _ => none
  others : ∀ j, j ≠ i → later.grants j = service.grants j
  adrift : later.adrift = service.adrift

end FileService

/-- The service as its clients may take it to be. -/
abbrev FileObject (ι : Type) := AtomicObject ι (UInt8 × Bytes) Message (FileService ι)

/-- The packets among what was seen, as calls of the service and its replies. -/
def signalsOf {ι : Type} (seen : List (ι × Observation))
    : List (ι × Signal (UInt8 × Bytes) Message) :=
  seen.filterMap fun
    | (i, .received typ payload) => some (i, .called (typ, payload))
    | (i, .replied typ payload reply) => some (i, .replied (typ, payload) reply)
    | (_, .event _) => none

theorem signalsOf_append {ι : Type} (early late : List (ι × Observation))
    : signalsOf (early ++ late) = signalsOf early ++ signalsOf late :=
  List.filterMap_append

theorem signalsOf_events {ι : Type} (i : ι) (calls : List Event)
    : signalsOf ((calls.map Observation.event).map fun observed => (i, observed)) = [] := by
  simp [signalsOf]

/-- What a store answers, and how it goes on. -/
def FileStore.environment {State : Type} (store : FileStore State) : Environment State :=
  fun s event later => store.respond s event.question = (event.answer, later)

theorem FileStore.environment_moves {State : Type} (store : FileStore State) (s : State)
    (event : Event) (later : State) (moved : store.environment.moves s event later)
    : store.respond s event.question = (event.answer, later) := by
  obtain ⟨effect, answer⟩ := event
  cases effect with
  | lock op => exact congrArg (Prod.mk ()) moved.symm
  | driver call => exact moved
  | randRead => exact moved

theorem FileStore.moves_respond {State : Type} (store : FileStore State) (s : State)
    (effect : Effect)
    : store.environment.moves s ⟨effect, (store.respond s effect).1⟩
        (store.respond s effect).2 := by
  cases effect <;> rfl

section Requests

variable {State : Type} {store : HonestStore State} {srv : Server} {t : Handles} {adrift : Adrift}
  {s final : State} {typ : UInt8} {payload : Bytes} {reply : Message}

theorem fulfils_of_dispatch (names : store.Names s adrift t)
    (prepared : prepare srv t typ payload = (none, none)) {later : Handles}
    (done : Interaction.exec store.respond s (dispatch srv t typ payload)
      = ((reply, later), final))
    : store.Fulfils srv t adrift s (.ofPacket t.grants typ payload) ((reply, later), final) := by
  have answered := @fulfils_answer _ store srv t adrift s names typ payload
  rw [answer, prepared] at answered
  rwa [← done]

theorem fulfils_of_job (names : store.Names s adrift t) {job : Job}
    (prepared : prepare srv t typ payload = (some job, none))
    (done : Interaction.exec store.respond s job.run = (reply, final))
    : store.Fulfils srv t adrift s (.ofPacket t.grants typ payload) ((reply, t), final) := by
  have answered := @fulfils_answer _ store srv t adrift s names typ payload
  rw [answer, prepared] at answered
  dsimp only at answered
  rwa [exec_keeping, done] at answered

theorem fulfils_of_early (names : store.Names s adrift t)
    (prepared : prepare srv t typ payload = (none, some reply))
    : store.Fulfils srv t adrift s (.ofPacket t.grants typ payload) ((reply, t), s) := by
  have answered := @fulfils_answer _ store srv t adrift s names typ payload
  rwa [answer, prepared] at answered

end Requests

-----------------------------------------------------------------------------------------
-- One session
-----------------------------------------------------------------------------------------

/-- A READ or WRITE in flight is waited for. -/
inductive Flight.Awaited (srv : Server) (t : Handles) (flight : Flight)
    : Waiting (UInt8 × Bytes) Message → Prop where
  | asking {job : Job} (prepared : prepare srv t flight.typ flight.payload = (some job, none))
    (whole : flight.rest = job.run)
    : Awaited srv t flight ⟨(flight.typ, flight.payload), none⟩
  | answered {reply : Message} (returns : flight.rest = .ret reply)
    : Awaited srv t flight ⟨(flight.typ, flight.payload), some reply⟩

/-- The table of a session whose requests are atomic, as its client may take it to be, and the
requests the client waits for. A request that was served alone has its handles granted before the
session has the table.
-/
inductive Session.Awaits (srv : Server) (s : Session)
    : Handles → List (Waiting (UInt8 × Bytes) Message) → Prop where
  | flying {waiting : List (Waiting (UInt8 × Bytes) Message)}
    (idle : ∀ typ payload rest, s.phase ≠ .answering typ payload rest)
    (closed : ∀ rest, s.phase ≠ .closing rest)
    (each : List.Forall₂ (Flight.Awaited srv s.handles) s.flights waiting)
    : Awaits srv s s.handles waiting
  | asking {typ : UInt8} {payload : Bytes}
    (phase : s.phase = .answering typ payload (dispatch srv s.handles typ payload))
    (alone : s.flights = []) (prepared : prepare srv s.handles typ payload = (none, none))
    : Awaits srv s s.handles [⟨(typ, payload), none⟩]
  | answered {typ : UInt8} {payload : Bytes} {reply : Message} {later : Handles}
    (phase : s.phase = .answering typ payload (.ret (reply, later))) (alone : s.flights = [])
    : Awaits srv s later [⟨(typ, payload), some reply⟩]
  | closing {rest : Prog (Option DriverError)} (phase : s.phase = .closing rest)
    (alone : s.flights = [])
    (silent : ∀ isAt : File → Bytes → Prop, rest.Asks (Touching isAt [] []) fun _ => True)
    : Awaits srv s s.handles []

/-- A request in flight, and where it is waited for, by induction on those before it. -/
theorem Flight.Awaited.split {srv : Server} {t : Handles} {before after : List Flight}
    {flight : Flight} {waiting : List (Waiting (UInt8 × Bytes) Message)}
    (each : List.Forall₂ (Flight.Awaited srv t) (before ++ flight :: after) waiting)
    : ∃ front own back,
        waiting = front ++ own :: back
        ∧ List.Forall₂ (Flight.Awaited srv t) before front
        ∧ flight.Awaited srv t own
        ∧ List.Forall₂ (Flight.Awaited srv t) after back := by
  induction before generalizing waiting with
  | nil =>
      obtain ⟨own, back, awaited, last, rfl⟩ := List.forall₂_cons_left_iff.mp each
      exact ⟨[], own, back, rfl, .nil, awaited, last⟩
  | cons other before ih =>
      obtain ⟨first, rest, awaited, others, rfl⟩ := List.forall₂_cons_left_iff.mp each
      obtain ⟨front, own, back, rfl, early, here, late⟩ := ih others
      exact ⟨first :: front, own, back, rfl, .cons awaited early, here, late⟩

-----------------------------------------------------------------------------------------
-- All sessions
-----------------------------------------------------------------------------------------

section Realization

variable {ι State : Type} {store : HonestStore State} {srv : Server} {tables : ι → Handles}
  {spec : Atomic ι State} {o : FileObject ι} {i : ι}

/-- Sessions whose requests are atomic, with these tables, as the object that serves files. -/
structure Realizes (store : HonestStore State) (srv : Server) (tables : ι → Handles)
    (spec : Atomic ι State) (o : FileObject ι) : Prop where
  contents : o.state.contents = store.contents spec.state
  grants : ∀ i, o.state.grants i = (tables i).grants
  names : ∀ i, store.Names spec.state (o.state.adrift i) (tables i)
  each : ∀ i, (spec.sessions i).Awaits srv (tables i) (o.waiting i)
  seen : o.seen = signalsOf spec.seen

variable [DecidableEq ι]

section Update

variable {trace : List Observation} {signals : List (Signal (UInt8 × Bytes) Message)}
  {later : Session} {s : State} {waiting : List (Waiting (UInt8 × Bytes) Message)}

/-- One session and its client have moved on, and no other notices. -/
theorem Realizes.update (real : Realizes store srv tables spec o) {service : FileService ι}
    {t : Handles} (contents : service.contents = store.contents s)
    (granted : service.grants i = t.grants)
    (others : ∀ j, j ≠ i → service.grants j = o.state.grants j)
    (names : store.Names s (service.adrift i) t)
    (kept : ∀ j, j ≠ i → store.Names s (service.adrift j) (tables j))
    (own : later.Awaits srv t waiting)
    (seen : signalsOf (trace.map fun observed => (i, observed))
      = signals.map fun signal => (i, signal))
    : Realizes store srv (Function.update tables i t) (spec.after i trace later s)
        (o.after i waiting signals service) where
  contents := contents
  grants j := by
    by_cases same : j = i
    · subst same
      simpa using granted
    · simpa [Function.update_of_ne same] using (others j same).trans (real.grants j)
  names j := by
    by_cases same : j = i
    · subst same
      simpa [Atomic.after] using names
    · simpa [Atomic.after, Function.update_of_ne same] using kept j same
  each j := by
    by_cases same : j = i
    · subst same
      simpa [Atomic.after, AtomicObject.after] using own
    · simpa [Atomic.after, AtomicObject.after, Function.update_of_ne same] using real.each j
  seen := by
    simp only [Atomic.after, AtomicObject.after, signalsOf_append, real.seen, seen]

/-- A session has moved on, with the same handles and files. -/
theorem Realizes.along (real : Realizes store srv tables spec o)
    (spares : store.Spares spec.state [] [] s) (own : later.Awaits srv (tables i) waiting)
    (seen : signalsOf (trace.map fun observed => (i, observed))
      = signals.map fun signal => (i, signal))
    : Realizes store srv tables (spec.after i trace later s)
        (o.after i waiting signals o.state) := by
  have moved := real.update (real.contents.trans spares.untouched.symm) (real.grants i)
    (fun _ _ => rfl) ((real.names i).stays spares) (fun j _ => (real.names j).stays spares) own seen
  rwa [Function.update_eq_self] at moved

end Update

/-- The service after a request of one client. -/
def FileService.after (service : FileService ι) (follows : Bool) (i : ι) (command : Command)
    (reply : Message) (contents : Contents) (grants : Grants) : FileService ι where
  contents
  grants := Function.update service.grants i grants
  adrift := Function.update
    (fun j => command.casts follows (service.grants j) (service.adrift j)) i
    (command.anchors (command.casts follows (service.grants i) (service.adrift i)) reply)

theorem FileService.serving_after {service : FileService ι} {follows : Bool}
    {packet : UInt8 × Bytes} {reply : Message} {contents : Contents} {grants : Grants}
    (serves : Serves srv service.contents (service.grants i) (service.adrift i) packet.1 packet.2
      reply contents grants)
    : Serving srv follows i service packet reply
        (service.after follows i (.ofPacket (service.grants i) packet.1 packet.2) reply contents
          grants) where
  own := by simpa [after] using serves
  others j other := by simp [after, Function.update_of_ne other]
  anchored := by simp [after]
  cast j other := by simp [after, Function.update_of_ne other]

/-- What a step of the sessions comes to. -/
def Realizes.Follows (store : HonestStore State) (srv : Server) (o : FileObject ι)
    (later : Atomic ι State) : Prop :=
  ∃ (next : FileObject ι) (tables : ι → Handles),
    AtomicObject.Steps (FileService.Serving srv store.follows) FileService.Leaving o next
    ∧ Realizes store srv tables later next

section Moves

variable {typ : UInt8} {payload : Bytes} {reply : Message} {later : Session} {s : State}
  {trace : List Observation} {before after : List (Waiting (UInt8 × Bytes) Message)}
  {t : Handles}

/-- A session has moved on, and its client does not notice. -/
theorem Realizes.silently (real : Realizes store srv tables spec o)
    (spares : store.Spares spec.state [] [] s)
    (own : later.Awaits srv (tables i) (o.waiting i))
    (seen : signalsOf (trace.map fun observed => (i, observed)) = [])
    : Realizes.Follows store srv o (spec.after i trace later s) := by
  have moved : Realizes store srv tables (spec.after i trace later s)
      (o.after i (o.waiting i) [] o.state) :=
    real.along spares own seen
  rw [AtomicObject.after_self] at moved
  exact ⟨o, tables, .refl, moved⟩

/-- A packet is read. -/
theorem Realizes.calls (real : Realizes store srv tables spec o)
    (own : later.Awaits srv (tables i) (o.waiting i ++ [⟨(typ, payload), none⟩]))
    : Realizes.Follows store srv o (spec.after i [.received typ payload] later spec.state) :=
  ⟨_, _, .single (.calls i (typ, payload)), real.along (.refl store _) own rfl⟩

/-- A request that was done is answered. -/
theorem Realizes.replies (real : Realizes store srv tables spec o)
    (waits : o.waiting i = before ++ ⟨(typ, payload), some reply⟩ :: after)
    (own : later.Awaits srv (tables i) (before ++ after))
    : Realizes.Follows store srv o
        (spec.after i [.replied typ payload reply] later spec.state) :=
  ⟨_, _, .single (.replies waits), real.along (.refl store _) own rfl⟩

section Serving

variable (real : Realizes store srv tables spec o)
  (done : store.Fulfils srv (tables i) (o.state.adrift i) spec.state
    (.ofPacket (tables i).grants typ payload) ((reply, t), s))

include real done

/-- A request of a session is one of the service, and leaves the handles of all on their files
or adrift.
-/
theorem Realizes.serving
    : ∃ service : FileService ι,
        FileService.Serving srv store.follows i o.state (typ, payload) reply service
        ∧ ∀ {trace signals later waiting}, later.Awaits srv t waiting
          → signalsOf (trace.map fun observed => (i, observed))
            = signals.map (fun signal => (i, signal))
          → Realizes store srv (Function.update tables i t) (spec.after i trace later s)
              (o.after i waiting signals service) := by
  have serves := done.serves
  rw [← real.contents, ← real.grants i] at serves
  refine ⟨_, FileService.serving_after serves, fun own seen => ?_⟩
  refine real.update rfl ?_ (fun j other => ?_) ?_ (fun j other => ?_) own seen
  · exact Function.update_self ..
  · exact Function.update_of_ne other ..
  · simpa [FileService.after, real.grants i] using done.names
  · simpa [FileService.after, Function.update_of_ne other, real.grants j, real.grants i]
      using (real.names j).casts done.spares

/-- A request is done. -/
theorem Realizes.serves (waits : o.waiting i = before ++ ⟨(typ, payload), none⟩ :: after)
    (own : later.Awaits srv t (before ++ ⟨(typ, payload), some reply⟩ :: after))
    (seen : signalsOf (trace.map fun observed => (i, observed)) = [])
    : Realizes.Follows store srv o (spec.after i trace later s) := by
  obtain ⟨service, serving, realized⟩ := real.serving done
  exact ⟨_, _, .single (.serves waits serving), realized own seen⟩

/-- A request is done and answered. -/
theorem Realizes.answers (waits : o.waiting i = before ++ ⟨(typ, payload), none⟩ :: after)
    (own : later.Awaits srv t (before ++ after))
    : Realizes.Follows store srv o (spec.after i [.replied typ payload reply] later s) := by
  obtain ⟨service, serving, realized⟩ := real.serving done
  exact ⟨_, _, .answers waits serving, realized own rfl⟩

/-- A packet is read and answered at once. -/
theorem Realizes.atOnce (own : later.Awaits srv t (o.waiting i))
    : Realizes.Follows store srv o
        (spec.after i [.received typ payload, .replied typ payload reply] later s) := by
  obtain ⟨service, serving, realized⟩ := real.serving done
  exact ⟨_, _, .atOnce serving, realized own rfl⟩

end Serving

/-- A session is over, and its client has left. -/
theorem Realizes.leaves (real : Realizes store srv tables spec o) (alone : o.waiting i = [])
    (own : later.Awaits srv ∅ [])
    : Realizes.Follows store srv o (spec.after i [] later spec.state) := by
  have left : FileService.Leaving i o.state
      { o.state with grants := Function.update o.state.grants i fun _ => none } :=
    ⟨rfl, Function.update_self .., fun _ other => Function.update_of_ne other .., rfl⟩
  exact ⟨_, _, .single (.leaves alone left), real.update (t := ∅) real.contents left.own
    left.others (store.names_empty _ _) (fun j _ => real.names j) own rfl⟩

end Moves

/-- A session that answers nothing alone and closes nothing, and whose requests in flight are
waited for.
-/
theorem Session.Awaits.of_phase {later : Session} {phase : Phase}
    {waiting : List (Waiting (UInt8 × Bytes) Message)} (same : later.phase = phase)
    (idle : ∀ typ payload rest, phase ≠ .answering typ payload rest)
    (closed : ∀ rest, phase ≠ .closing rest)
    (each : List.Forall₂ (Flight.Awaited srv later.handles) later.flights waiting)
    : later.Awaits srv later.handles waiting :=
  .flying (fun _ _ _ => same ▸ idle _ _ _) (fun _ => same ▸ closed _) each

omit [DecidableEq ι] in
/-- What the client of a session that answers nothing alone and closes nothing waits for. -/
theorem Realizes.flying (real : Realizes store srv tables spec o) {phase : Phase}
    (same : (spec.sessions i).phase = phase)
    (idle : ∀ typ payload rest, phase ≠ .answering typ payload rest)
    (closed : ∀ rest, phase ≠ .closing rest)
    : tables i = (spec.sessions i).handles
      ∧ List.Forall₂ (Flight.Awaited srv (spec.sessions i).handles) (spec.sessions i).flights
          (o.waiting i) := by
  have awaits := real.each i
  generalize tables i = t, o.waiting i = waiting at awaits ⊢
  cases awaits with
  | flying _ _ each => exact ⟨rfl, each⟩
  | asking asks => exact absurd (same.symm.trans asks) (idle _ _ _)
  | answered asked => exact absurd (same.symm.trans asked) (idle _ _ _)
  | closing closes => exact absurd (same.symm.trans closes) (closed _)

/-- The reading goroutine goes on, and its client does not notice. -/
theorem Realizes.turns (real : Realizes store srv tables spec o) {phase next : Phase}
    (same : (spec.sessions i).phase = phase)
    (idle : ∀ typ payload rest, phase ≠ .answering typ payload rest)
    (closed : ∀ rest, phase ≠ .closing rest)
    (idles : ∀ typ payload rest, next ≠ .answering typ payload rest)
    (closes : ∀ rest, next ≠ .closing rest)
    : Realizes.Follows store srv o
        (spec.after i [] { spec.sessions i with phase := next } spec.state) := by
  obtain ⟨own, each⟩ := real.flying same idle closed
  refine real.silently (.refl store _) ?_ rfl
  rw [own]
  exact .flying idles closes each

/-- The request that ran alone is answered. -/
theorem Realizes.answered (real : Realizes store srv tables spec o) {typ : UInt8}
    {payload : Bytes} {reply : Message} {handles : Handles}
    (phase : (spec.sessions i).phase = .answering typ payload (.ret (reply, handles)))
    : Realizes.Follows store srv o (spec.after i [.replied typ payload reply]
        { spec.sessions i with phase := .serving, handles } spec.state) := by
  have awaits := real.each i
  generalize held : tables i = t, waits : o.waiting i = waiting at awaits
  cases awaits with
  | flying idle => exact absurd phase (idle _ _ _)
  | closing closes => cases phase.symm.trans closes
  | answered asked alone =>
      cases phase.symm.trans asked
      refine real.replies (waits.trans (List.nil_append _).symm) ?_
      rw [held, List.nil_append]
      exact .of_phase rfl nofun nofun (by simp [alone])
  | asking asks alone prepared =>
      -- It was answered without a question to the driver.
      obtain ⟨rfl, rfl, same⟩ := Phase.answering.inj (phase.symm.trans asks)
      have done : Interaction.exec store.respond spec.state
          (dispatch srv (tables i) typ payload) = ((reply, handles), spec.state) := by
        rw [held, ← same]
        rfl
      refine real.answers (fulfils_of_dispatch (real.names i) (held ▸ prepared) done)
        (waits.trans (List.nil_append _).symm) ?_
      exact .of_phase rfl nofun nofun (by simp [alone])

/-- A request in flight is answered. -/
theorem Realizes.landed (real : Realizes store srv tables spec o) {before after : List Flight}
    {flight : Flight} {reply : Message}
    (inFlight : (spec.sessions i).flights = before ++ flight :: after)
    (returns : flight.rest = .ret reply)
    : Realizes.Follows store srv o (spec.after i [.replied flight.typ flight.payload reply]
        { spec.sessions i with flights := before ++ after } spec.state) := by
  have awaits := real.each i
  generalize held : tables i = t, waits : o.waiting i = waiting at awaits
  cases awaits with
  | asking _ alone => simp [alone] at inFlight
  | answered _ alone => simp [alone] at inFlight
  | closing _ alone => simp [alone] at inFlight
  | flying idle closed each =>
      rw [inFlight] at each
      obtain ⟨front, own, back, rfl, early, awaited, late⟩ := Flight.Awaited.split each
      have others := List.rel_append early late
      cases awaited with
      | answered returned =>
          cases returns.symm.trans returned
          refine real.replies waits ?_
          rw [held]
          exact .flying idle closed others
      | asking prepared whole =>
          have done : Interaction.exec store.respond spec.state flight.rest
              = (reply, spec.state) := by
            rw [returns]
            rfl
          refine real.answers (fulfils_of_job (real.names i) (held ▸ prepared) (whole ▸ done)) waits
            ?_
          rw [held]
          exact .flying idle closed others

/-- What a session does by itself: its client calls or is answered, leaves, or does not
notice.
-/
theorem Realizes.plain (real : Realizes store srv tables spec o) {trace : List Observation}
    {later : Session} (step : Session.Step srv (spec.sessions i) trace later)
    (silent : effects trace = [])
    : Realizes.Follows store srv o (spec.after i trace later spec.state) := by
  cases step with
  | negotiated phase => exact real.turns phase nofun nofun nofun nofun
  | refused phase => exact real.turns phase nofun nofun nofun nofun
  | hungUp phase => exact real.turns phase nofun nofun nofun nofun
  | started phase prepared =>
      obtain ⟨own, each⟩ := real.flying phase nofun nofun
      refine real.calls ?_
      rw [own]
      refine .of_phase phase nofun nofun ?_
      exact List.rel_append each (.cons (.asking prepared rfl) .nil)
  | early phase alone prepared =>
      obtain ⟨own, _⟩ := real.flying phase nofun nofun
      exact real.atOnce (fulfils_of_early (real.names i) (own ▸ prepared)) (real.each i)
  | dispatched phase alone prepared =>
      obtain ⟨own, each⟩ := real.flying phase nofun nofun
      rw [alone] at each
      refine real.calls ?_
      rw [own, List.forall₂_nil_left_iff.mp each]
      exact .asking rfl alone prepared
  | answered phase => exact real.answered phase
  | landed inFlight returns => exact real.landed inFlight returns
  | drained phase alone all =>
      obtain ⟨own, each⟩ := real.flying phase nofun nofun
      rw [alone] at each
      refine real.silently (.refl store _) ?_ rfl
      rw [own, List.forall₂_nil_left_iff.mp each]
      exact .closing rfl alone fun _ => closeAll_asks _ fun _ _ file _ => .still trivial rfl
  | returned phase =>
      have awaits := real.each i
      generalize tables i = t, waits : o.waiting i = waiting at awaits
      cases awaits with
      | flying _ closed => exact absurd phase (closed _)
      | asking asks => cases phase.symm.trans asks
      | answered asked => cases phase.symm.trans asked
      | closing _ alone =>
          refine real.leaves waits ?_
          exact .of_phase rfl nofun nofun (by simp [alone])
  | advanced => cases silent
  | flew => cases silent
  | closed => cases silent

/-- The work of a request that runs alone. -/
theorem Realizes.alone (real : Realizes store srv tables spec o) {typ : UInt8} {payload : Bytes}
    {program : Prog (Message × Handles)} {calls : List Event} {result : Message × Handles}
    {s : State} (phase : (spec.sessions i).phase = .answering typ payload program)
    (done : Interaction.exec store.respond spec.state program = (result, s))
    : Realizes.Follows store srv o (spec.after i (calls.map .event)
        { spec.sessions i with phase := .answering typ payload (.ret result) } s) := by
  have awaits := real.each i
  generalize held : tables i = t, waits : o.waiting i = waiting at awaits
  cases awaits with
  | flying idle => exact absurd phase (idle _ _ _)
  | closing closes => cases phase.symm.trans closes
  | answered asked alone =>
      cases phase.symm.trans asked
      cases done
      refine real.silently (.refl store _) ?_ (signalsOf_events i calls)
      rw [held, waits]
      exact .answered rfl alone
  | asking asks alone prepared =>
      cases phase.symm.trans asks
      rw [← held] at done
      refine real.serves (fulfils_of_dispatch (real.names i) (held ▸ prepared) done)
        (waits.trans (List.nil_append _).symm) ?_ (signalsOf_events i calls)
      exact .answered rfl alone

/-- The work of a request in flight. -/
theorem Realizes.flight (real : Realizes store srv tables spec o) {before after : List Flight}
    {flight : Flight} {calls : List Event} {reply : Message} {s : State}
    (inFlight : (spec.sessions i).flights = before ++ flight :: after)
    (done : Interaction.exec store.respond spec.state flight.rest = (reply, s))
    : Realizes.Follows store srv o (spec.after i (calls.map .event)
        { spec.sessions i with flights := before ++ { flight with rest := .ret reply } :: after }
        s) := by
  have awaits := real.each i
  generalize held : tables i = t, waits : o.waiting i = waiting at awaits
  cases awaits with
  | asking _ alone => simp [alone] at inFlight
  | answered _ alone => simp [alone] at inFlight
  | closing _ alone => simp [alone] at inFlight
  | flying idle closed each =>
      rw [inFlight] at each
      obtain ⟨front, own, back, rfl, early, awaited, late⟩ := Flight.Awaited.split each
      have landing : Flight.Awaited srv (spec.sessions i).handles
          { flight with rest := .ret reply } ⟨(flight.typ, flight.payload), some reply⟩ :=
        .answered rfl
      have others := List.rel_append early (.cons landing late)
      cases awaited with
      | answered returned =>
          rw [returned] at done
          cases done
          refine real.silently (.refl store _) ?_ (signalsOf_events i calls)
          rw [held, waits]
          exact .flying idle closed others
      | asking prepared whole =>
          refine real.serves (fulfils_of_job (real.names i) (held ▸ prepared) (whole ▸ done)) waits
            ?_ (signalsOf_events i calls)
          rw [held]
          exact .flying idle closed others

/-- Every step of sessions whose requests are atomic is any number of steps of the object. -/
theorem Realizes.step (real : Realizes store srv tables spec o) {later : Atomic ι State}
    (step : Atomic.Step srv store.environment spec later)
    : Realizes.Follows store srv o later := by
  cases step with
  | plain step silent => exact real.plain step silent
  | alone phase runs path =>
      exact real.alone phase (runs.exec_eq store.environment_moves path)
  | flight inFlight runs path =>
      exact real.flight inFlight (runs.exec_eq store.environment_moves path)
  | @close i effect next answer s phase moved =>
      have answers := store.environment_moves _ _ _ moved
      have awaits := real.each i
      generalize held : tables i = t, waits : o.waiting i = waiting at awaits
      cases awaits with
      | flying _ closed => exact absurd phase (closed _)
      | asking asks => cases phase.symm.trans asks
      | answered asked => cases phase.symm.trans asked
      | closing closes alone silent =>
          cases phase.symm.trans closes
          have spares : store.Spares spec.state [] [] (store.respond spec.state effect).2 :=
            .respond (silent _).1 (.refl store _)
          rw [answers] at spares
          refine real.silently spares ?_ rfl
          rw [held, waits]
          exact .closing rfl alone fun isAt => (silent isAt).2 answer

omit [DecidableEq ι] in
/-- Where all begin. -/
theorem Realizes.start (store : HonestStore State) (srv : Server) (s : State)
    : Realizes store srv (fun _ => ∅) ({ state := s } : Atomic ι State)
        { state := ⟨store.contents s, fun _ _ => none, fun _ _ => false⟩ } where
  contents := rfl
  grants _ := rfl
  names _ := store.names_empty _ _
  each _ := .of_phase rfl nofun nofun .nil
  seen := rfl

/-- Whatever sessions whose requests are atomic do, the object does, by induction on the
steps.
-/
theorem Realizes.run {s : State}
    (steps : Relation.ReflTransGen (Atomic.Step srv store.environment) { state := s } spec)
    : Realizes.Follows store srv
        { state := ⟨store.contents s, fun _ _ => none, fun _ _ => false⟩ } spec := by
  induction steps with
  | refl => exact ⟨_, _, .refl, .start store srv s⟩
  | tail _ step ih =>
      obtain ⟨o, tables, reached, real⟩ := ih
      obtain ⟨next, later, onwards, realized⟩ := real.step step
      exact ⟨next, later, reached.trans onwards, realized⟩

end Realization

-----------------------------------------------------------------------------------------
-- Sessions side by side
-----------------------------------------------------------------------------------------

section Sessions

variable {ι σ State : Type} [DecidableEq ι] {srv : Server}

/-- A step in which no session that ends closes a file while a request is at work under the
exclusive lock.
-/
def Contended.OrderlyStep (srv : Server) (env : Environment σ) (sys later : Contended ι σ)
    : Prop :=
  ∃ i trace,
    Contended.Step srv false env sys i trace later
    ∧ ((sys.members i).1.phase.isClosing = true → effects trace ≠ []
      → ∀ j, (sys.members j).2.NoneExclusive)

/-- The reading goroutine of a session takes a step without an effect. -/
theorem Contended.OrderlyStep.quietly {env : Environment σ} {sys : Contended ι σ} (i : ι)
    {trace : List Observation} {later : Session}
    (step : Session.Step srv (sys.members i).1 trace later)
    (kept : later.flights = (sys.members i).1.flights) (silent : effects trace = [])
    : Contended.OrderlyStep srv env sys
        (sys.after i trace (later, (sys.members i).2) sys.state) := by
  refine ⟨i, trace, ?_, fun _ loud => absurd silent loud⟩
  have locked := @LockedStep.reading srv _ later (sys.members i).2 trace step kept
  rw [silent] at locked
  exact .mk locked (by simp [Contended.Grants, silent]) (silent ▸ .nil _)

/-- A request that runs alone has an effect, which the store answers. -/
theorem Contended.OrderlyStep.responds (store : FileStore State) {sys : Contended ι State}
    (i : ι) {typ : UInt8} {payload : Bytes} {effect : Effect}
    {next : effect.Answer → Prog (Message × Handles)}
    (phase : (sys.members i).1.phase = .answering typ payload (.ask effect next))
    (granted : ∀ op, effect = .lock op → op.acquires = true → ∀ j, (sys.members j).2.modes = [])
    : let (answer, state) := store.respond sys.state effect
      Contended.OrderlyStep srv store.environment sys
        (sys.after i [.event ⟨effect, answer⟩]
          ({ (sys.members i).1 with phase := .answering typ payload (next answer) },
            {
              (sys.members i).2 with
              reading := discipline.next (sys.members i).2.reading effect answer
            }) state) := by
  refine ⟨i, _, .mk (.reading (.advanced _ phase) rfl) ?_ (.single (store.moves_respond _ _)), ?_⟩
  · intro event made op asked takes j mode holds
    cases List.mem_singleton.mp made
    rw [granted op asked takes j] at holds
    cases holds
  · intro closing
    rw [phase] at closing
    cases closing

/-- A session that was granted a handle to read `/a`, beside one that has not begun. -/
theorem Contended.opened
    : ∃ sys : Contended Bool Objects,
        Relation.ReflTransGen
          (Contended.OrderlyStep readOnlyServer objectFiles.environment)
          { state := oneObject [1, 2, 3] } sys
        ∧ signalsOf sys.seen
          = [(true, .called (fxpOpen, openForReading)),
            (true, .replied (fxpOpen, openForReading)
              (.handleReply { id := 1, handle := zeroToken }))]
        ∧ sys.state = oneObject [1, 2, 3]
        ∧ ∀ i, (sys.members i).2.modes = [] := by
  have accepted : negotiate readOnlyServer fxpInit [0, 0, 0, 3]
      = .ok { version, extensions := readOnlyServer.extensions } := by
    decide
  have negotiated : Relation.ReflTransGen
      (Contended.OrderlyStep readOnlyServer objectFiles.environment)
      ({ state := oneObject [1, 2, 3] } : Contended Bool Objects) _ :=
    .single (.quietly true (.negotiated rfl accepted) rfl rfl)
  have asked := negotiated.tail <| .quietly true
    (@Session.Step.dispatched _ _ fxpOpen openForReading rfl rfl rfl) rfl rfl
  have locked := asked.tail <| .responds objectFiles.toFileStore true rfl
    fun _ _ _ j => by cases j <;> rfl
  have stated := locked.tail <| .responds objectFiles.toFileStore true rfl nofun
  have opened := stated.tail <| .responds objectFiles.toFileStore true rfl nofun
  have drawn := opened.tail <| .responds objectFiles.toFileStore true rfl nofun
  have unlocked := drawn.tail <| .responds objectFiles.toFileStore true rfl
    (by rintro _ ⟨⟩ ⟨⟩)
  have answered := unlocked.tail <| .quietly true (.answered rfl) rfl rfl
  exact ⟨_, answered, rfl, rfl, fun i => by cases i <;> rfl⟩

end Sessions

end SftpServer.Sftp
