import SftpServer.Sftp.Session
import SftpServer.Wire.Packet

/-! A session and the stream it reads (`session.run`, `endOfInput`): the loop looks for the
first byte of a packet, reads the packet, and returns at the first read that fails. That all
replies are written is assumed here: what is modelled is how the input ends a session.
-/

namespace SftpServer.Sftp

open SftpServer.Foundations
open SftpServer.Wire

/-- What a failed read ends a session with: nil, `none`, at a clean end of the stream. -/
def endOfInput (err : PacketError) : Option PacketError :=
  if err = .stream .eof then none else some err

/-- A session, the buffered stream it reads, and what its loop has returned, once it has. -/
structure Fed where
  session : Session
  input : Buffered
  outcome : Option (Option PacketError) := none

namespace Fed

/-- `ReadPacket` after the look at the first byte, into the buffer of some slot. -/
def nextPacket (srv : Server) (buf : Bytes) (f : Fed) : PacketResult Buffered :=
  readPacket Buffered.source buf srv.packetLimit f.input.peek.2

/-- The loop returns: the session waits for what is in flight and closes its handles. -/
def stop (f : Fed) (input : Buffered) (err : PacketError) : Fed :=
  {
    session := { f.session with phase := .draining }
    input
    outcome := some (endOfInput err)
  }

/-- A step of a session that reads its own input. -/
inductive Step (srv : Server) : Fed → List Observation → Fed → Prop where
  /-- The loop reads a packet and starts its request. -/
  | took {f : Fed} {p : Packet} {trace : List Observation} {later : Session} (buf : Bytes)
    (reading : f.session.phase = .serving) (peeked : f.input.peek.1 = none)
    (reads : (f.nextPacket srv buf).packet = .ok p)
    (step : Session.Step srv f.session trace later)
    (takes : trace.head? = some (.received p.typ p.payload))
    : Step srv f trace { f with session := later, input := (f.nextPacket srv buf).later }
  /-- There is no next packet. -/
  | ended {f : Fed} {err : ReadError} (reading : f.session.phase = .serving)
    (peeked : f.input.peek.1 = some err)
    : Step srv f [] (f.stop f.input.peek.2 (.stream err))
  /-- The next packet cannot be read. -/
  | broke {f : Fed} {err : PacketError} (buf : Bytes) (reading : f.session.phase = .serving)
    (peeked : f.input.peek.1 = none) (reads : (f.nextPacket srv buf).packet = .error err)
    : Step srv f [] (f.stop (f.nextPacket srv buf).later err)
  /-- A request goes on, or the session is drained and closed. -/
  | beside {f : Fed} {trace : List Observation} {later : Session}
    (step : Session.Step srv f.session trace later)
    (negotiated : f.session.phase ≠ .negotiating)
    (quiet : ∀ typ payload, .received typ payload ∉ trace)
    (goesOn : f.session.phase = .serving → later.phase = .serving)
    : Step srv f trace { f with session := later }

/-- Any number of such steps. -/
inductive Run (srv : Server) : Fed → List Observation → Fed → Prop where
  | refl (f : Fed) : Run srv f [] f
  | step {f middle last : Fed} {early late : List Observation}
    (run : Run srv f early middle) (step : Step srv middle late last)
    : Run srv f (early ++ late) last

/-- Fed or not, it is a session: what holds of every step of a session holds here. -/
theorem Step.session {srv : Server} {f later : Fed} {trace : List Observation}
    (step : Step srv f trace later)
    : Session.Step srv f.session trace later.session := by
  cases step with
  | took buf reading peeked reads step takes => exact step
  | ended reading peeked => exact .hungUp reading
  | broke buf reading peeked reads => exact .hungUp reading
  | beside step negotiated quiet goesOn => exact step

theorem Run.session {srv : Server} {f later : Fed} {trace : List Observation}
    (run : Run srv f trace later)
    : Session.Run srv f.session trace later.session := by
  induction run with
  | refl => exact .refl _
  | step _ step ih => exact .step ih step.session

theorem Run.trans {srv : Server} {first middle last : Fed} {early late : List Observation}
    (before : Run srv first early middle) (after : Run srv middle late last)
    : Run srv first (early ++ late) last := by
  induction after with
  | refl => simpa using before
  | step _ step ih =>
      rw [← List.append_assoc]
      exact .step ih step

theorem Run.single {srv : Server} {first last : Fed} {trace : List Observation}
    (step : Step srv first trace last)
    : Run srv first trace last := by
  simpa using Run.step (.refl first) step

end Fed

end SftpServer.Sftp
