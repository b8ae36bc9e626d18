import SftpServer.Sftp.Input

/-! The reading goroutine of a session as it is written, call by call (`session.run`,
`armPacketTimer`, `giveUp`, `Server.Serve`), with the slots it takes, the timer it sets and the
bytes that reach the peer. Of the request scheduler, `inflight.Conn`, what the source says of it
is assumed: `Begin` hands out one of a number of slots; `Go` starts a job beside the others, and
`Barrier` a request alone once all before it are answered; replies are written in the order in
which their requests began, after which the slot is free again; `Err` is the first error; and
`Wait` returns when nothing is in flight.
-/

namespace SftpServer.Sftp

open SftpServer.Foundations
open SftpServer.Wire

/-- `inflight.Slot`: the buffers of one request, each up to its capacity. -/
structure Slot where
  inBuf : Bytes := []
  outBuf : Bytes := []

/-- Why nothing more is served on a connection. -/
inductive LinkError where
  | write
  | frame (err : PacketError)
  | scheduler

/-- What a session ends with, beside nil. -/
inductive SessionError where
  | packet (err : PacketError)
  | negotiation (err : NegotiationError)
  | link (err : LinkError)

/-- The way to the peer: what has reached it, the first error, and whether a write failed, after
which nothing reaches it any more.
-/
structure Link where
  output : Bytes := []
  failed : Option LinkError := none
  dead : Bool := false

/-- A message is framed in a buffer and written: all of it, or a part before the stream fails,
or nothing because something failed before or because it is too large.
-/
inductive Link.Delivers (m : Message) (out : Bytes) : Link → Link → Prop where
  | written {link : Link} {framed : Bytes} (fits : (frame m out).1 = .ok framed)
    (alive : link.dead = false)
    : Delivers m out link { link with output := link.output ++ framed }
  | torn {link : Link} {framed part : Bytes} (fits : (frame m out).1 = .ok framed)
    (alive : link.dead = false) (inside : part <+: framed)
    : Delivers m out link
        {
          output := link.output ++ part
          failed := link.failed.or (some .write)
          dead := true
        }
  | dropped {link : Link} (failed : link.failed ≠ none) : Delivers m out link link
  | unframed {link : Link} {err : PacketError} (large : (frame m out).1 = .error err)
    : Delivers m out link { link with failed := link.failed.or (some (.frame err)) }

/-- A job that was given to `Go`, with its slot. -/
structure Gone where
  slot : Slot
  flight : Flight

/-- Where the reading goroutine is. -/
inductive Stage where
  | negotiating
  /-- It is at the top of the loop, before `Err`. -/
  | checking
  | peeking
  | beginning
  /-- `ReadPacket` reads into a slot. -/
  | reading (slot : Slot)
  /-- `ReadPacket` has returned, and the timer is not stopped yet. -/
  | took (slot : Slot) (packet : Except PacketError Packet)
  /-- The packet is about to be given to `Go`, or is in `Barrier` while others are in flight. -/
  | scheduling (slot : Slot) (packet : Packet)
  /-- The request runs alone in `Barrier`. -/
  | answering (slot : Slot) (typ : UInt8) (payload : Bytes) (rest : Prog (Message × Handles))
  /-- `run` returns and is in the deferred `Wait`. -/
  | waiting (result : Option SessionError)
  /-- `run` returns and is in the deferred `closeAll`. -/
  | closing (result : Option SessionError) (rest : Prog (Option DriverError))
  | returned (result : Option SessionError)

/-- A session with its stream. -/
structure Loop where
  stage : Stage := .negotiating
  handles : Handles := ∅
  /-- The jobs in flight, in the order in which they began. -/
  running : List Gone := []
  free : List Slot
  input : Buffered
  link : Link := {}
  /-- The timer on the rest of a packet is set. -/
  armed : Bool := false
  /-- A timer has run out, and `giveUp` is about to run. -/
  expired : Bool := false
  /-- The stream was given up. -/
  interrupted : Bool := false

namespace Loop

/-- A session as `Serve` starts it, with `n` slots. -/
def initial (n : Nat) (input : Buffered) : Loop where
  free := List.replicate n {}
  input

/-- `wire.ReadPacket` into a buffer. -/
def readPacket (srv : Server) (buf : Bytes) (l : Loop) : PacketResult Buffered :=
  Wire.readPacket Buffered.source buf srv.packetLimit l.input

/-- `endOfInput`, as a result of the session. -/
def endWith (err : PacketError) : Option SessionError := (endOfInput err).map .packet

/-- One step of a session: a call of the reading goroutine, an effect of a request, a reply, or
the timer. `timed` says whether there is a limit on how long a packet may take.
-/
inductive Step (srv : Server) (timed : Bool) : Loop → List Observation → Loop → Prop where
  | negotiated {l : Loop} {p : Packet} {reply : VersionReply} {link : Link}
    (stage : l.stage = .negotiating) (reads : (l.readPacket srv []).packet = .ok p)
    (accepted : negotiate srv p.typ p.payload = .ok reply)
    (sent : l.link.Delivers (.versionReply reply) [] link) (unfailed : link.failed = none)
    : Step srv timed l []
        { l with stage := .checking, input := (l.readPacket srv []).later, link }
  /-- The stream ends before the first packet. -/
  | silent {l : Loop} {err : PacketError} {order : List OpenFile}
    (stage : l.stage = .negotiating) (reads : (l.readPacket srv []).packet = .error err)
    (all : order.Perm l.handles.openFiles)
    : Step srv timed l [] { l with stage := .closing (some (.packet err)) (closeAll order) }
  /-- The first packet is refused. -/
  | refused {l : Loop} {p : Packet} {err : NegotiationError} {order : List OpenFile}
    (stage : l.stage = .negotiating) (reads : (l.readPacket srv []).packet = .ok p)
    (rejected : negotiate srv p.typ p.payload = .error err)
    (all : order.Perm l.handles.openFiles)
    : Step srv timed l [] { l with stage := .closing (some (.negotiation err)) (closeAll order) }
  /-- VERSION does not reach the peer. -/
  | unanswered {l : Loop} {p : Packet} {reply : VersionReply} {link : Link} {err : LinkError}
    {order : List OpenFile}
    (stage : l.stage = .negotiating) (reads : (l.readPacket srv []).packet = .ok p)
    (accepted : negotiate srv p.typ p.payload = .ok reply)
    (sent : l.link.Delivers (.versionReply reply) [] link) (failed : link.failed = some err)
    (all : order.Perm l.handles.openFiles)
    : Step srv timed l []
        {
          l with
          stage := .closing (some (.link err)) (closeAll order)
          input := (l.readPacket srv []).later
          link
        }
  | checked {l : Loop} (stage : l.stage = .checking) (unfailed : l.link.failed = none)
    : Step srv timed l [] { l with stage := .peeking }
  | failed {l : Loop} {err : LinkError} (stage : l.stage = .checking)
    (failed : l.link.failed = some err)
    : Step srv timed l [] { l with stage := .waiting (some (.link err)) }
  | peeked {l : Loop} (stage : l.stage = .peeking) (peeks : l.input.peek.1 = none)
    : Step srv timed l [] { l with stage := .beginning, input := l.input.peek.2 }
  | ended {l : Loop} {err : ReadError} (stage : l.stage = .peeking)
    (peeks : l.input.peek.1 = some err ∨ l.interrupted = true)
    : Step srv timed l []
        { l with stage := .waiting (endWith (.stream err)), input := l.input.peek.2 }
  /-- A slot is taken, and the timer is set. -/
  | begun {l : Loop} {before after : List Slot} {slot : Slot} (stage : l.stage = .beginning)
    (some_free : l.free = before ++ slot :: after)
    : Step srv timed l []
        {
          l with
          stage := .reading slot
          free := before ++ after
          armed := timed
        }
  | unbegun {l : Loop} {err : LinkError} (stage : l.stage = .beginning)
    : Step srv timed l [] { l with stage := .waiting (some (.link err)) }
  | read {l : Loop} {slot : Slot} (stage : l.stage = .reading slot)
    : Step srv timed l []
        {
          l with
          stage := .took { slot with inBuf := (l.readPacket srv slot.inBuf).next }
            (l.readPacket srv slot.inBuf).packet
          input := (l.readPacket srv slot.inBuf).later
        }
  /-- A read of a stream that was given up fails anywhere, with some buffer. -/
  | cut {l : Loop} {slot : Slot} {buf : Bytes} {err : PacketError}
    (stage : l.stage = .reading slot) (interrupted : l.interrupted = true)
    (within : buf.length ≤ max slot.inBuf.length srv.packetLimit)
    : Step srv timed l [] { l with stage := .took { slot with inBuf := buf } (.error err) }
  | stopped {l : Loop} {slot : Slot} {p : Packet} (stage : l.stage = .took slot (.ok p))
    : Step srv timed l [] { l with stage := .scheduling slot p, armed := false }
  | abandoned {l : Loop} {slot : Slot} {err : PacketError}
    (stage : l.stage = .took slot (.error err))
    : Step srv timed l []
        {
          l with
          stage := .waiting (endWith err)
          free := slot :: l.free
          armed := false
        }
  | went {l : Loop} {slot : Slot} {p : Packet} {job : Job}
    (stage : l.stage = .scheduling slot p)
    (prepared : prepare srv l.handles p.typ p.payload = (some job, none))
    : Step srv timed l [.received p.typ p.payload]
        {
          l with
          stage := .checking
          running := l.running ++ [⟨slot, p.typ, p.payload, job.span, job.run⟩]
        }
  | early {l : Loop} {slot : Slot} {p : Packet} {reply : Message} {link : Link}
    (stage : l.stage = .scheduling slot p) (alone : l.running = [])
    (prepared : prepare srv l.handles p.typ p.payload = (none, some reply))
    (delivered : l.link.Delivers reply slot.outBuf link)
    : Step srv timed l [.received p.typ p.payload, .replied p.typ p.payload reply]
        {
          l with
          stage := .checking
          free := { slot with outBuf := (frame reply slot.outBuf).2 } :: l.free
          link
        }
  | dispatched {l : Loop} {slot : Slot} {p : Packet} (stage : l.stage = .scheduling slot p)
    (alone : l.running = [])
    (prepared : prepare srv l.handles p.typ p.payload = (none, none))
    : Step srv timed l [.received p.typ p.payload]
        {
          l with
          stage := .answering slot p.typ p.payload (dispatch srv l.handles p.typ p.payload)
        }
  | advanced {l : Loop} {slot : Slot} {typ : UInt8} {payload : Bytes} {effect : Effect}
    {next : effect.Answer → Prog (Message × Handles)} (answer : effect.Answer)
    (stage : l.stage = .answering slot typ payload (.ask effect next))
    : Step srv timed l [.event ⟨effect, answer⟩]
        { l with stage := .answering slot typ payload (next answer) }
  | answered {l : Loop} {slot : Slot} {typ : UInt8} {payload : Bytes} {reply : Message}
    {handles : Handles} {link : Link}
    (stage : l.stage = .answering slot typ payload (.ret (reply, handles)))
    (delivered : l.link.Delivers reply slot.outBuf link)
    : Step srv timed l [.replied typ payload reply]
        {
          l with
          stage := .checking
          handles
          free := { slot with outBuf := (frame reply slot.outBuf).2 } :: l.free
          link
        }
  | flew {l : Loop} {before after : List Gone} {gone : Gone} {effect : Effect}
    {next : effect.Answer → Prog Message} (answer : effect.Answer)
    (inFlight : l.running = before ++ gone :: after)
    (asks : gone.flight.rest = .ask effect next)
    : Step srv timed l [.event ⟨effect, answer⟩]
        {
          l with
          running :=
            before ++ { gone with flight := { gone.flight with rest := next answer } } :: after
        }
  /-- The job that began first is answered. -/
  | landed {l : Loop} {gone : Gone} {rest : List Gone} {reply : Message} {link : Link}
    (first : l.running = gone :: rest) (returns : gone.flight.rest = .ret reply)
    (delivered : l.link.Delivers reply gone.slot.outBuf link)
    : Step srv timed l [.replied gone.flight.typ gone.flight.payload reply]
        {
          l with
          running := rest
          free := { gone.slot with outBuf := (frame reply gone.slot.outBuf).2 } :: l.free
          link
        }
  | waited {l : Loop} {result : Option SessionError} {order : List OpenFile}
    (stage : l.stage = .waiting result) (alone : l.running = [])
    (all : order.Perm l.handles.openFiles)
    : Step srv timed l [] { l with stage := .closing result (closeAll order) }
  | closed {l : Loop} {result : Option SessionError} {effect : Effect}
    {next : effect.Answer → Prog (Option DriverError)} (answer : effect.Answer)
    (stage : l.stage = .closing result (.ask effect next))
    : Step srv timed l [.event ⟨effect, answer⟩]
        { l with stage := .closing result (next answer) }
  | returned {l : Loop} {result : Option SessionError} {err : Option DriverError}
    (stage : l.stage = .closing result (.ret err))
    : Step srv timed l [] { l with stage := .returned result, handles := ∅ }
  /-- The timer runs out, which stopping it does not undo. -/
  | expired {l : Loop} (armed : l.armed = true)
    : Step srv timed l [] { l with armed := false, expired := true }
  /-- The stream is given up. One that cannot be interrupted goes on as it was. -/
  | gaveUp {l : Loop} (expired : l.expired = true)
    : Step srv timed l [] { l with expired := false, interrupted := true }

/-- Any number of such steps. -/
inductive Run (srv : Server) (timed : Bool) : Loop → List Observation → Loop → Prop where
  | refl (l : Loop) : Run srv timed l [] l
  | step {l middle last : Loop} {early late : List Observation}
    (run : Run srv timed l early middle) (step : Step srv timed middle late last)
    : Run srv timed l (early ++ late) last

end Loop

-----------------------------------------------------------------------------------------
-- A loop is a session
-----------------------------------------------------------------------------------------

/-- What the goroutine is doing, whichever call it is in. -/
def Stage.phase : Stage → Phase
  | .negotiating => .negotiating
  | .checking | .peeking | .beginning | .reading _ | .took _ _ | .scheduling _ _ => .serving
  | .answering _ typ payload rest => .answering typ payload rest
  | .waiting _ => .draining
  | .closing _ rest => .closing rest
  | .returned _ => .returned

/-- Where nothing runs beside the goroutine. -/
def Stage.alone : Stage → Bool
  | .negotiating | .answering _ _ _ _ | .closing _ _ | .returned _ => true
  | .checking | .peeking | .beginning | .reading _ | .took _ _ | .scheduling _ _
  | .waiting _ => false

/-- The session without its slots, its timer and its stream. -/
def Loop.session (l : Loop) : Session where
  phase := l.stage.phase
  handles := l.handles
  flights := l.running.map Gone.flight

namespace Loop

variable {srv : Server} {timed : Bool} {l later : Loop} {trace : List Observation}

/-- Nothing is in flight before the first packet, beside a request that runs alone, and once the
handles are closed.
-/
def Quiet (l : Loop) : Prop := l.stage.alone = true → l.running = []

theorem quiet_initial (n : Nat) (input : Buffered) : (initial n input).Quiet := fun _ => rfl

theorem Step.quiet (step : Step srv timed l trace later) (quiet : l.Quiet) : later.Quiet := by
  cases step with
  | silent stage reads all => exact fun _ => quiet (by rw [stage]; rfl)
  | refused stage reads rejected all => exact fun _ => quiet (by rw [stage]; rfl)
  | unanswered stage reads accepted sent failed all => exact fun _ => quiet (by rw [stage]; rfl)
  | dispatched stage alone prepared => exact fun _ => alone
  | advanced answer stage => exact fun _ => quiet (by rw [stage]; rfl)
  | flew answer inFlight asks =>
      intro alone
      rw [quiet alone] at inFlight
      simp at inFlight
  | landed first returns delivered =>
      intro alone
      rw [quiet alone] at first
      cases first
  | waited stage alone all => exact fun _ => alone
  | closed answer stage => exact fun _ => quiet (by rw [stage]; rfl)
  | returned stage => exact fun _ => quiet (by rw [stage]; rfl)
  | expired armed => exact quiet
  | gaveUp expired => exact quiet
  | _ => exact nofun

/-- What the goroutine does to its slots, its timer and its stream is not seen in the session;
the rest is one step of it, or two where a session ends before it began.
-/
theorem Step.session (step : Step srv timed l trace later) (quiet : l.Quiet)
    : Session.Run srv l.session trace later.session := by
  -- A session that ends before the first packet waits for nothing.
  have unopened {order : List OpenFile} (negotiating : l.stage = .negotiating)
      (all : order.Perm l.handles.openFiles)
      : Session.Run srv l.session [] { l.session with phase := .closing (closeAll order) } := by
    have alone : l.session.flights = [] := by
      simp [Loop.session, quiet (by rw [negotiating]; rfl)]
    have refused : Session.Run srv l.session [] { l.session with phase := .draining } :=
      .single (.refused (by rw [Loop.session, negotiating]; rfl))
    exact refused.trans (.single (.drained rfl alone all))
  have hungUp (serving : l.stage.phase = .serving)
      : Session.Run srv l.session [] { l.session with phase := .draining } :=
    .single (.hungUp serving)
  have unseen {stage : Stage} (same : stage.phase = l.stage.phase)
      : Session.Run srv l.session [] { l.session with phase := stage.phase } := by
    rw [same]
    exact .refl _
  cases step with
  | negotiated stage reads accepted sent unfailed =>
      exact .single (.negotiated (by rw [Loop.session, stage]; rfl) accepted)
  | silent stage reads all => exact unopened stage all
  | refused stage reads rejected all => exact unopened stage all
  | unanswered stage reads accepted sent failed all => exact unopened stage all
  | checked stage unfailed => exact unseen (by rw [stage]; rfl)
  | failed stage failed => exact hungUp (by rw [stage]; rfl)
  | peeked stage peeks => exact unseen (by rw [stage]; rfl)
  | ended stage peeks => exact hungUp (by rw [stage]; rfl)
  | begun stage some_free => exact unseen (by rw [stage]; rfl)
  | unbegun stage => exact hungUp (by rw [stage]; rfl)
  | read stage => exact unseen (by rw [stage]; rfl)
  | cut stage interrupted within => exact unseen (by rw [stage]; rfl)
  | stopped stage => exact unseen (by rw [stage]; rfl)
  | abandoned stage => exact hungUp (by rw [stage]; rfl)
  | went stage prepared =>
      have started := Session.Run.starting (s := l.session) _ _ (by rw [Loop.session, stage]; rfl)
        prepared
      simpa [Loop.session, stage, Stage.phase] using started
  | early stage alone prepared delivered =>
      have answered : Session.Step srv l.session _ l.session :=
        .early (by rw [Loop.session, stage]; rfl) (by simp [Loop.session, alone]) prepared
      simpa [Loop.session, stage, Stage.phase] using Session.Run.single answered
  | dispatched stage alone prepared =>
      exact .single (.dispatched (by rw [Loop.session, stage]; rfl)
        (by simp [Loop.session, alone]) prepared)
  | advanced answer stage =>
      exact .single (.advanced answer (by rw [Loop.session, stage]; rfl))
  | answered stage delivered =>
      exact .single (.answered (by rw [Loop.session, stage]; rfl))
  | @flew before after gone effect next answer inFlight asks =>
      have flew := @Session.Step.flew srv l.session (before.map Gone.flight)
        (after.map Gone.flight) gone.flight effect next answer
        (by simp [Loop.session, inFlight]) asks
      simpa [Loop.session] using Session.Run.single flew
  | @landed gone rest reply link first returns delivered =>
      exact .single (@Session.Step.landed srv l.session [] (rest.map Gone.flight) gone.flight
        reply (by simp [Loop.session, first]) returns)
  | waited stage alone all =>
      exact .single (.drained (by rw [Loop.session, stage]; rfl)
        (by simp [Loop.session, alone]) all)
  | closed answer stage => exact .single (.closed answer (by rw [Loop.session, stage]; rfl))
  | returned stage => exact .single (.returned (by rw [Loop.session, stage]; rfl))
  | expired armed => exact .refl _
  | gaveUp expired => exact .refl _

theorem Run.quiet (run : Run srv timed l trace later) (quiet : l.Quiet) : later.Quiet := by
  induction run with
  | refl => exact quiet
  | step _ step ih => exact step.quiet ih

/-- Whatever runs call by call runs as a session, by induction on the steps. -/
theorem Run.session (run : Run srv timed l trace later) (quiet : l.Quiet)
    : Session.Run srv l.session trace later.session := by
  induction run with
  | refl => exact .refl _
  | step run step ih => exact ih.trans (step.session (run.quiet quiet))

theorem Run.trans {first middle last : Loop} {before after : List Observation}
    (early : Run srv timed first before middle) (late : Run srv timed middle after last)
    : Run srv timed first (before ++ after) last := by
  induction late with
  | refl => simpa using early
  | step _ step ih =>
      rw [← List.append_assoc]
      exact .step ih step

end Loop

end SftpServer.Sftp
