import SftpServer.Sftp.Dispatch

/-! One session (`session.run`, `Server.Serve`) as a transition system. The reading
goroutine is in one phase at a time; READs and WRITEs run beside it and beside each other,
one effect of one of them at a step. Of the request scheduler it is assumed that a barrier
starts when nothing is in flight and ends before the next packet is read, and that the
session is drained before its handles are closed.
-/

namespace SftpServer.Sftp

open SftpServer.Foundations
open SftpServer.Wire

/-- A READ or WRITE in flight: the request, where it touches, and what is left to do. -/
structure Flight where
  typ : UInt8
  payload : Bytes
  span : Span
  rest : Prog Message

/-- What the reading goroutine is doing. -/
inductive Phase where
  | negotiating
  | serving
  | answering (typ : UInt8) (payload : Bytes) (rest : Prog (Message × Handles))
  | draining
  | closing (rest : Prog (Option DriverError))
  | returned

structure Session where
  phase : Phase := .negotiating
  handles : Handles := ∅
  flights : List Flight := []

/-- A session as `Serve` starts it. -/
def Session.initial : Session := {}

/-- What can be seen of a session: packets in, effects, replies out. -/
inductive Observation where
  | received (typ : UInt8) (payload : Bytes)
  | event (event : Event)
  | replied (typ : UInt8) (payload : Bytes) (reply : Message)

/-- One step of a session and what is seen of it. -/
inductive Session.Step (srv : Server) : Session → List Observation → Session → Prop where
  /-- INIT is accepted and VERSION sent. -/
  | negotiated {s : Session} {typ : UInt8} {payload : Bytes} {reply : VersionReply}
    (phase : s.phase = .negotiating) (accepted : negotiate srv typ payload = .ok reply)
    : Step srv s [] { s with phase := .serving }
  /-- The first packet is refused, or the stream ends before it. -/
  | refused {s : Session} (phase : s.phase = .negotiating)
    : Step srv s [] { s with phase := .draining }
  /-- A READ or WRITE starts beside what is in flight. -/
  | started {s : Session} {typ : UInt8} {payload : Bytes} {job : Job}
    (phase : s.phase = .serving)
    (prepared : prepare srv s.handles typ payload = (some job, none))
    : Step srv s [.received typ payload]
        {
          s with
          flights := s.flights ++ [{ typ, payload, span := job.span, rest := job.run }]
        }
  /-- A READ or WRITE that needs no driver is answered as a barrier. -/
  | early {s : Session} {typ : UInt8} {payload : Bytes} {reply : Message}
    (phase : s.phase = .serving) (alone : s.flights = [])
    (prepared : prepare srv s.handles typ payload = (none, some reply))
    : Step srv s [.received typ payload, .replied typ payload reply] s
  /-- Any other request starts alone. -/
  | dispatched {s : Session} {typ : UInt8} {payload : Bytes}
    (phase : s.phase = .serving) (alone : s.flights = [])
    (prepared : prepare srv s.handles typ payload = (none, none))
    : Step srv s [.received typ payload]
        { s with phase := .answering typ payload (dispatch srv s.handles typ payload) }
  /-- The request that runs alone has an effect. -/
  | advanced {s : Session} {typ : UInt8} {payload : Bytes} {effect : Effect}
    {next : effect.Answer → Prog (Message × Handles)} (answer : effect.Answer)
    (phase : s.phase = .answering typ payload (.ask effect next))
    : Step srv s [.event ⟨effect, answer⟩]
        { s with phase := .answering typ payload (next answer) }
  /-- The request that ran alone is answered. -/
  | answered {s : Session} {typ : UInt8} {payload : Bytes} {reply : Message}
    {handles : Handles} (phase : s.phase = .answering typ payload (.ret (reply, handles)))
    : Step srv s [.replied typ payload reply] { s with phase := .serving, handles }
  /-- A request in flight has an effect. -/
  | flew {s : Session} {before after : List Flight} {flight : Flight} {effect : Effect}
    {next : effect.Answer → Prog Message} (answer : effect.Answer)
    (inFlight : s.flights = before ++ flight :: after)
    (asks : flight.rest = .ask effect next)
    : Step srv s [.event ⟨effect, answer⟩]
        { s with flights := before ++ { flight with rest := next answer } :: after }
  /-- A request in flight is answered. -/
  | landed {s : Session} {before after : List Flight} {flight : Flight} {reply : Message}
    (inFlight : s.flights = before ++ flight :: after) (returns : flight.rest = .ret reply)
    : Step srv s [.replied flight.typ flight.payload reply]
        { s with flights := before ++ after }
  /-- The stream ends, at any packet boundary or inside a packet. -/
  | hungUp {s : Session} (phase : s.phase = .serving)
    : Step srv s [] { s with phase := .draining }
  /-- Nothing is in flight any more: the handles are closed, in any order. -/
  | drained {s : Session} {order : List OpenFile} (phase : s.phase = .draining)
    (alone : s.flights = []) (all : order.Perm s.handles.openFiles)
    : Step srv s [] { s with phase := .closing (closeAll order) }
  | closed {s : Session} {effect : Effect}
    {next : effect.Answer → Prog (Option DriverError)} (answer : effect.Answer)
    (phase : s.phase = .closing (.ask effect next))
    : Step srv s [.event ⟨effect, answer⟩] { s with phase := .closing (next answer) }
  | returned {s : Session} {err : Option DriverError} (phase : s.phase = .closing (.ret err))
    : Step srv s [] { s with phase := .returned, handles := ∅ }

/-- Any number of steps, with all that is seen of them. -/
inductive Session.Run (srv : Server) : Session → List Observation → Session → Prop where
  | refl (s : Session) : Run srv s [] s
  | step {s middle last : Session} {early late : List Observation}
    (run : Run srv s early middle) (step : Step srv middle late last)
    : Run srv s (early ++ late) last

/-- The effects among what was seen. -/
def effects (trace : List Observation) : List Event :=
  trace.filterMap fun
    | .event event => some event
    | _ => none

@[simp]
theorem effects_append (early late : List Observation)
    : effects (early ++ late) = effects early ++ effects late :=
  List.filterMap_append

/-- A step has one effect at most. -/
theorem Session.Step.effects_few {srv : Server} {s later : Session} {trace : List Observation}
    (step : Session.Step srv s trace later)
    : effects trace = [] ∨ ∃ event, effects trace = [event] := by
  cases step <;> simp [effects]

namespace Session

/-- Runs compose, by induction on the second. -/
theorem Run.trans {srv : Server} {first middle last : Session} {early late : List Observation}
    (before : Run srv first early middle) (after : Run srv middle late last)
    : Run srv first (early ++ late) last := by
  induction after with
  | refl => simpa using before
  | step _ step ih =>
      rw [← List.append_assoc]
      exact .step ih step

theorem Run.single {srv : Server} {first last : Session} {trace : List Observation}
    (step : Step srv first trace last)
    : Run srv first trace last := by
  simpa using Run.step (.refl first) step

/-- Every branch of the request that runs alone is a run of the session, by induction on
the branch.
-/
theorem Run.answering {srv : Server} {s : Session} {typ : UInt8} {payload : Bytes}
    {program : Prog (Message × Handles)} {calls : List Event} {result : Message × Handles}
    (runs : program.Runs calls result) (phase : s.phase = .answering typ payload program)
    : Run srv s (calls.map .event ++ [.replied typ payload result.1])
        { s with phase := .serving, handles := result.2 } := by
  induction runs generalizing s with
  | ret result => exact .single (.answered phase)
  | @ask effect next answer calls result rest ih =>
      have first : Run srv s [.event ⟨effect, answer⟩]
          { s with phase := .answering typ payload (next answer) } :=
        .single (.advanced answer phase)
      exact first.trans (ih rfl)

/-- A request that runs alone, from the packet to its reply. -/
theorem Run.dispatching {srv : Server} {s : Session} (typ : UInt8) (payload : Bytes)
    {calls : List Event} {result : Message × Handles} (phase : s.phase = .serving)
    (alone : s.flights = []) (prepared : prepare srv s.handles typ payload = (none, none))
    (runs : (dispatch srv s.handles typ payload).Runs calls result)
    : Run srv s
        (.received typ payload :: (calls.map .event ++ [.replied typ payload result.1]))
        { s with handles := result.2 } := by
  -- Serving again afterwards is what the session was doing before.
  have answered := (Run.single (.dispatched phase alone prepared)).trans (.answering runs rfl)
  simpa [← phase] using answered

/-- A READ or WRITE that takes off. -/
theorem Run.starting {srv : Server} {s : Session} (typ : UInt8) (payload : Bytes) {job : Job}
    (phase : s.phase = .serving)
    (prepared : prepare srv s.handles typ payload = (some job, none))
    : Run srv s [.received typ payload]
        {
          s with
          flights := s.flights ++ [{ typ, payload, span := job.span, rest := job.run }]
        } :=
  .single (.started phase prepared)

/-- Every branch of the closing of the handles ends the session, by induction on the
branch.
-/
theorem Run.closing {srv : Server} {s : Session} {program : Prog (Option DriverError)}
    {calls : List Event} {result : Option DriverError} (runs : program.Runs calls result)
    (phase : s.phase = .closing program)
    : Run srv s (calls.map .event) { s with phase := .returned, handles := ∅ } := by
  induction runs generalizing s with
  | ret result => exact .single (.returned phase)
  | @ask effect next answer calls result rest ih =>
      have first : Run srv s [.event ⟨effect, answer⟩]
          { s with phase := .closing (next answer) } :=
        .single (.closed answer phase)
      exact first.trans (ih rfl)

/-- A client that hangs up with nothing in flight. -/
theorem Run.hangingUp {srv : Server} {s : Session} {calls : List Event}
    {result : Option DriverError} (phase : s.phase = .serving) (alone : s.flights = [])
    (runs : (closeAll s.handles.openFiles).Runs calls result)
    : Run srv s (calls.map .event) { s with phase := .returned, handles := ∅ } := by
  have hungUp : Run srv s [] { s with phase := .draining } := .single (.hungUp phase)
  have drained : Run srv { s with phase := .draining } []
      { s with phase := .closing (closeAll s.handles.openFiles) } :=
    .single (.drained rfl alone .rfl)
  exact (hungUp.trans drained).trans (.closing runs rfl)

/-- Every session whose first packet is an INIT of version 3 comes to serve. -/
theorem Run.negotiating (srv : Server)
    : Run srv Session.initial [] { Session.initial with phase := .serving } := by
  have accepted : negotiate srv fxpInit [0, 0, 0, 3]
      = .ok { version, extensions := srv.extensions } := by
    have decodes : decodeInit [0, 0, 0, 3] = .ok { version := 3, extensions := [] } := by
      decide
    simp [negotiate, decodes, version]
  exact .single (.negotiated rfl accepted)

end Session

end SftpServer.Sftp
