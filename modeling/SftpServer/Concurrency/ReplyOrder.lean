import SftpServer.Correctness.Framing
import SftpServer.Sftp.Loop

/-! What a client reads. Jobs end in any order, but what reaches the peer is VERSION and then the
replies, whole, in the order of the requests and each under its request's id; and a session that
is not disturbed returns when it has answered every whole packet that was sent to it.
-/

namespace SftpServer.Wire

open SftpServer.Foundations

/-- A message as it is framed. -/
def Message.packet (m : Message) : Packet := ⟨m.type, m.payload⟩

/-- What is seen of a packet that is taken. -/
def Packet.request (p : Packet) : UInt8 × Bytes := (p.typ, p.payload)

end SftpServer.Wire

namespace SftpServer.Sftp

open SftpServer.Foundations
open SftpServer.Wire

-----------------------------------------------------------------------------------------
-- Requests are answered in order
-----------------------------------------------------------------------------------------

namespace Loop

variable {srv : Server} {timed : Bool} {l later : Loop} {trace : List Observation}

/-- A step takes requests in at one end and answers them at the other. -/
theorem Step.in_order (step : Step srv timed l trace later) (quiet : l.Quiet)
    : l.session.pending ++ receivedOf trace = repliedOf trace ++ later.session.pending := by
  have unseen (received : receivedOf trace = []) (replied : repliedOf trace = [])
      (same : later.session.pending = l.session.pending)
      : l.session.pending ++ receivedOf trace = repliedOf trace ++ later.session.pending := by
    rw [received, replied, same, List.append_nil, List.nil_append]
  cases step with
  | went stage prepared =>
      simp [Session.pending, Loop.session, stage, Stage.phase, Phase.pending, receivedOf,
        repliedOf]
  | early stage alone prepared delivered =>
      simp [Session.pending, Loop.session, stage, alone, Stage.phase, Phase.pending, receivedOf,
        repliedOf]
  | dispatched stage alone prepared =>
      simp [Session.pending, Loop.session, stage, alone, Stage.phase, Phase.pending, receivedOf,
        repliedOf]
  | answered stage delivered =>
      simp [Session.pending, Loop.session, stage, Stage.phase, Phase.pending, receivedOf,
        repliedOf]
  | flew answer inFlight asks =>
      exact unseen rfl rfl (by simp [Session.pending, Loop.session, inFlight])
  | @landed gone rest reply link first returns delivered =>
      -- Beside a job in flight no request runs alone.
      have shared : l.stage.phase.pending = [] := by
        cases stage : l.stage with
        | answering slot typ payload program =>
            have alone := quiet (by rw [stage]; rfl)
            rw [first] at alone
            cases alone
        | _ => rfl
      simp [Session.pending, Loop.session, shared, first, receivedOf, repliedOf]
  | expired armed => exact unseen rfl rfl rfl
  | gaveUp expired => exact unseen rfl rfl rfl
  | _ =>
      exact unseen rfl rfl
        (by simp_all [Session.pending, Loop.session, Stage.phase, Phase.pending])

/-- The requests received are those answered, in the order in which they came, and then those
that are pending; by induction on the steps.
-/
theorem Run.in_order {n : Nat} {input : Buffered}
    (run : Run srv timed (initial n input) trace l)
    : receivedOf trace = repliedOf trace ++ l.session.pending := by
  generalize start : initial n input = first at run
  induction run with
  | refl =>
      subst start
      rfl
  | @step middle last early late run step ih =>
      have quiet : middle.Quiet := run.quiet (start ▸ quiet_initial n input)
      have received : receivedOf (early ++ late) = receivedOf early ++ receivedOf late :=
        List.filterMap_append
      have replied : repliedOf (early ++ late) = repliedOf early ++ repliedOf late :=
        List.filterMap_append
      rw [received, replied, ih, List.append_assoc, step.in_order quiet, List.append_assoc]

end Loop

-----------------------------------------------------------------------------------------
-- What reaches the peer
-----------------------------------------------------------------------------------------

/-- The replies among what was seen. -/
def repliesOf (trace : List Observation) : List Message :=
  trace.filterMap fun
    | .replied _ _ reply => some reply
    | _ => none

theorem repliesOf_append (early late : List Observation)
    : repliesOf (early ++ late) = repliesOf early ++ repliesOf late :=
  List.filterMap_append

/-- What is framed is a packet that anyone reads. -/
theorem frame_eq {m : Message} {out framed : Bytes} (fits : (frame m out).1 = .ok framed)
    : framed = m.packet.frame ∧ m.packet.Fits 0 := by
  simp only [frame, send, writePacket] at fits
  split at fits
  · cases fits
  · rename_i small
    exact ⟨(Except.ok.inj fits).symm, Nat.not_lt.mp small, Nat.not_lt.mp small⟩

theorem frames_concat (ps : List Packet) (p : Packet)
    : frames (ps ++ [p]) = frames ps ++ p.frame := by
  simp [frames]

/-- What has reached the peer of what was to be said after the first message: whole messages in
order, and once a write has failed a part of one that follows them, which is the very next one if
nothing failed before; all of them if nothing has failed.
-/
structure Link.Carries (first : Message) (said sent : List Message) (torn : Bytes) (link : Link)
    : Prop where
  output : link.output = frames ((first :: sent).map Message.packet) ++ torn
  readable : ∀ m ∈ first :: sent, m.packet.Fits 0
  ordered : sent.Sublist said
  whole : link.dead = false → torn = []
  part : link.dead = true → ∃ m,
    torn <+: m.packet.frame
    ∧ (sent ++ [m]).Sublist said
    ∧ (link.failed = some .write → sent ++ [m] <+: said)
  cause : link.failed = some .write → link.dead = true
  all : link.failed = none → sent = said ∧ link.dead = false

/-- One more message is said. -/
theorem Link.Delivers.carries {first m : Message} {out torn : Bytes} {link later : Link}
    {said sent : List Message} (delivers : link.Delivers m out later)
    (carries : link.Carries first said sent torn)
    : ∃ sent torn, later.Carries first (said ++ [m]) sent torn := by
  have more : said.Sublist (said ++ [m]) := List.sublist_append_left said [m]
  -- What is not written leaves what was written, and what was torn, as it was.
  have unwritten (same : later.output = link.output) (dead : later.dead = link.dead)
      (failed : later.failed ≠ none)
      (cause : later.failed = some .write → link.failed = some .write)
      : later.Carries first (said ++ [m]) sent torn := {
    output := same.trans carries.output
    readable := carries.readable
    ordered := carries.ordered.trans more
    whole := dead ▸ carries.whole
    part broken := by
      obtain ⟨next, part, after, exactly⟩ := carries.part (dead ▸ broken)
      exact ⟨next, part, after.trans more,
        fun write => (exactly (cause write)).trans (List.prefix_append said [m])⟩
    cause write := dead ▸ carries.cause (cause write)
    all unfailed := absurd unfailed failed
  }
  cases delivers with
  | written fits alive =>
      obtain ⟨rfl, small⟩ := frame_eq fits
      refine ⟨sent ++ [m], [], ?_, ?_, carries.ordered.append_right [m], fun _ => rfl,
        fun broken => ?_, carries.cause, fun unfailed => ?_⟩
      · rw [carries.output, carries.whole alive, List.append_nil, List.append_nil,
          ← List.cons_append, List.map_append, List.map_singleton, frames_concat]
      · rw [← List.cons_append]
        exact List.forall_mem_append.mpr ⟨carries.readable, List.forall_mem_singleton.mpr small⟩
      · cases alive.symm.trans broken
      · exact ⟨by rw [(carries.all unfailed).1], alive⟩
  | @torn framed part fits alive inside =>
      obtain ⟨rfl, _⟩ := frame_eq fits
      refine ⟨sent, part, ?_, carries.readable, carries.ordered.trans more, nofun, fun _ => ?_,
        fun _ => rfl, fun unfailed => by simp at unfailed⟩
      · rw [carries.output, carries.whole alive, List.append_nil]
      · refine ⟨m, inside, carries.ordered.append_right [m], fun write => ?_⟩
        -- A write has not failed before, so nothing has, and all was sent.
        cases failed : link.failed with
        | none => exact (carries.all failed).1 ▸ List.prefix_rfl
        | some err =>
            simp only [failed, Option.or_some, Option.some.injEq] at write
            cases alive.symm.trans (carries.cause (failed.trans (congrArg some write)))
  | dropped failed => exact ⟨sent, torn, unwritten rfl rfl failed id⟩
  | unframed large =>
      refine ⟨sent, torn, unwritten rfl rfl (by simp) fun write => ?_⟩
      cases failed : link.failed with
      | none => simp [failed] at write
      | some err => simpa [failed] using write

/-- VERSION, as it answers every INIT that is accepted. -/
def hello (srv : Server) : Message := .versionReply { version, extensions := srv.extensions }

theorem negotiate_ok {srv : Server} {typ : UInt8} {payload : Bytes} {reply : VersionReply}
    (accepted : negotiate srv typ payload = .ok reply)
    : .versionReply reply = hello srv := by
  unfold negotiate at accepted
  split at accepted
  · cases accepted
  · split at accepted
    · cases accepted
    · split at accepted
      · cases accepted
      · cases accepted
        rfl

/-- The handles are closed, or were. -/
def Stage.ends : Stage → Bool
  | .closing _ _ | .returned _ => true
  | _ => false

namespace Loop

variable {srv : Server} {timed : Bool} {l later : Loop} {trace : List Observation}

/-- VERSION did not reach the peer: the session is over, and has said nothing else. -/
structure Ungreeted (srv : Server) (l : Loop) : Prop where
  ends : l.stage.ends = true
  failed : l.link.failed ≠ none
  part : l.link.output <+: (hello srv).packet.frame ∧ (l.link.dead = false → l.link.output = [])

/-- Nothing is said before VERSION, and nothing else than replies after it. -/
structure Tells (srv : Server) (l : Loop) (said : List Message) : Prop where
  before : l.stage = .negotiating → said = [] ∧ l.link = {}
  after : l.stage ≠ .negotiating
    → (∃ sent torn, l.link.Carries (hello srv) said sent torn) ∨ said = [] ∧ l.Ungreeted srv

variable {said : List Message}

/-- Nothing is said at a step. -/
theorem Tells.moves (tells : l.Tells srv said) (same : later.link = l.link)
    (begun : later.stage = .negotiating ↔ l.stage = .negotiating)
    (ends : l.stage.ends = true → later.stage.ends = true)
    : later.Tells srv (said ++ []) := by
  rw [List.append_nil]
  constructor
  · rw [same, begun]
    exact tells.before
  · intro onwards
    rw [Ne, begun] at onwards
    refine (tells.after onwards).imp (by rw [same]; exact id) fun unsaid => ?_
    obtain ⟨nothing, ungreeted⟩ := unsaid
    exact ⟨nothing, ends ungreeted.ends, same ▸ ungreeted.failed, same ▸ ungreeted.part⟩

/-- A reply is said, after VERSION. -/
theorem Tells.replies (tells : l.Tells srv said) (begun : l.stage ≠ .negotiating)
    (goes : l.stage.ends = false) {reply : Message} {out : Bytes}
    (delivered : l.link.Delivers reply out later.link) (stays : later.stage ≠ .negotiating)
    : later.Tells srv (said ++ [reply]) := by
  refine ⟨fun again => absurd again stays, fun _ => .inl ?_⟩
  rcases tells.after begun with ⟨sent, torn, carries⟩ | ⟨_, ungreeted⟩
  · exact delivered.carries carries
  · cases goes.symm.trans ungreeted.ends

/-- Of a session whose first packet is accepted. -/
theorem Step.tells (step : Step srv timed l trace later) (quiet : l.Quiet)
    (welcome : l.stage = .negotiating → ∃ p reply,
      (l.readPacket srv []).packet = .ok p ∧ negotiate srv p.typ p.payload = .ok reply)
    (tells : l.Tells srv said)
    : later.Tells srv (said ++ repliesOf trace) := by
  cases step with
  | negotiated stage reads accepted sent unfailed =>
      obtain ⟨rfl, fresh⟩ := tells.before stage
      rw [fresh, negotiate_ok accepted] at sent
      refine ⟨nofun, fun _ => .inl ⟨[], [], ?_⟩⟩
      cases sent with
      | written fits alive =>
          obtain ⟨rfl, small⟩ := frame_eq fits
          exact ⟨by simp [frames_cons, frames_nil], by simpa using small, .slnil, fun _ => rfl,
            nofun, nofun, fun _ => ⟨rfl, rfl⟩⟩
      | torn => simp at unfailed
      | dropped failed => exact absurd rfl failed
      | unframed => simp at unfailed
  | unanswered stage reads accepted sent failed all =>
      obtain ⟨rfl, fresh⟩ := tells.before stage
      rw [fresh, negotiate_ok accepted] at sent
      refine ⟨nofun, fun _ => .inr ⟨rfl, rfl, by simp [failed], ?_⟩⟩
      cases sent with
      | written => cases failed
      | torn fits alive inside =>
          obtain ⟨rfl, _⟩ := frame_eq fits
          exact ⟨inside, nofun⟩
      | dropped before => exact absurd rfl before
      | unframed => exact ⟨List.nil_prefix, fun _ => rfl⟩
  | silent stage reads all =>
      obtain ⟨p, reply, packet, _⟩ := welcome stage
      rw [packet] at reads
      cases reads
  | refused stage reads rejected all =>
      obtain ⟨p, reply, packet, accepted⟩ := welcome stage
      cases packet.symm.trans reads
      rw [accepted] at rejected
      cases rejected
  | early stage alone prepared delivered =>
      exact tells.replies (by rw [stage]; nofun) (by rw [stage]; rfl) delivered nofun
  | answered stage delivered =>
      exact tells.replies (by rw [stage]; nofun) (by rw [stage]; rfl) delivered nofun
  | landed first returns delivered =>
      -- Before VERSION, and once the session is over, nothing is in flight.
      have shared : l.stage.alone = false := by
        by_contra alone
        rw [quiet (by simpa using alone)] at first
        cases first
      have begun : l.stage ≠ .negotiating := fun stage => by
        rw [stage] at shared
        cases shared
      exact tells.replies begun (by cases stage : l.stage <;> simp_all [Stage.alone, Stage.ends])
        delivered begun
  | flew answer inFlight asks => exact tells.moves rfl .rfl id
  | expired armed => exact tells.moves rfl .rfl id
  | gaveUp expired => exact tells.moves rfl .rfl id
  | _ => exact tells.moves rfl (by simp [*]) (by simp [*, Stage.ends])

end Loop

-----------------------------------------------------------------------------------------
-- The packets that are sent to a session
-----------------------------------------------------------------------------------------

/-- Where a session is in its stream, of which `whole` are the packets after INIT and `rest` is
what is cut off: it has taken some, holds `next`, and the others are unread.
-/
def Reads (whole : List Packet) (rest : Bytes) (input : Buffered)
    (received : List (UInt8 × Bytes)) (next : List Packet) : Prop :=
  input.stream.Lively
  ∧ ∃ taken waiting,
      whole = taken ++ (next ++ waiting)
      ∧ received = taken.map Packet.request
      ∧ input.unread = frames waiting ++ rest

/-- How a session ends: given up, with an error of its connection, or at the end of the stream,
with nil if the end is clean.
-/
def Ends (whole : List Packet) (rest : Bytes) (received : List (UInt8 × Bytes))
    (interrupted : Bool) (result : Option SessionError) : Prop :=
  received <+: whole.map Packet.request
  ∧ (interrupted = true
    ∨ (∃ err, result = some (.link err))
    ∨ received = whole.map Packet.request ∧ (result = none ↔ rest = []))

namespace Loop

/-- How far a session has got on its stream. -/
def Follows (first : Packet) (whole : List Packet) (rest : Bytes) (l : Loop)
    (received : List (UInt8 × Bytes)) : Prop :=
  match l.stage with
  | .negotiating =>
      l.input.stream.Lively ∧ l.input.unread = first.frame ++ (frames whole ++ rest)
      ∧ received = []
  | .checking | .peeking | .answering _ _ _ _ => Reads whole rest l.input received []
  | .beginning | .reading _ => Reads whole rest l.input received [] ∧ l.input.unread ≠ []
  | .took _ (.ok p) | .scheduling _ p => Reads whole rest l.input received [p]
  | .took _ (.error err) => Ends whole rest received l.interrupted (endWith err)
  | .waiting result | .closing result _ | .returned result =>
      Ends whole rest received l.interrupted result

end Loop

variable {whole : List Packet} {rest : Bytes} {input : Buffered}
  {received : List (UInt8 × Bytes)} {next : List Packet}

/-- No more was received than was sent. -/
theorem Reads.received_of (reads : Reads whole rest input received next)
    : received <+: whole.map Packet.request := by
  obtain ⟨_, taken, waiting, rfl, rfl, _⟩ := reads
  rw [List.map_append]
  exact List.prefix_append _ _

theorem Reads.takes {p : Packet} (reads : Reads whole rest input received [p])
    : Reads whole rest input (received ++ [p.request]) [] := by
  obtain ⟨lively, taken, waiting, rfl, rfl, unread⟩ := reads
  exact ⟨lively, taken ++ [p], waiting, by simp, by simp, unread⟩

/-- The look ahead sees the end, or leaves the stream as it is. -/
theorem Reads.peeks (reads : Reads whole rest input received [])
    : (input.peek.1 = none
        → Reads whole rest input.peek.2 received [] ∧ input.peek.2.unread ≠ [])
      ∧ ∀ err, input.peek.1 = some err
        → err = .eof ∧ rest = [] ∧ received = whole.map Packet.request := by
  obtain ⟨lively, taken, waiting, split, got, unread⟩ := reads
  obtain ⟨looks, same, lively⟩ := Buffered.peek_spec lively
  by_cases empty : input.unread = []
  · rw [if_pos empty] at looks
    refine ⟨fun peeks => ?_, fun err peeks => ?_⟩
    · rw [looks] at peeks
      cases peeks
    · rw [looks] at peeks
      cases peeks
      -- A packet is never empty on the wire, so none is left, and no part of one.
      rw [unread, List.append_eq_nil_iff] at empty
      have none_left : waiting = [] := by
        cases waiting with
        | nil => rfl
        | cons q qs => simp [frames_cons, Packet.frame] at empty
      exact ⟨rfl, empty.2, by simp [got, split, none_left]⟩
  · rw [if_neg empty] at looks
    refine ⟨fun _ => ⟨⟨lively, taken, waiting, split, got, same.trans unread⟩, ?_⟩, ?_⟩
    · rwa [same]
    · intro err peeks
      rw [looks] at peeks
      cases peeks

namespace Loop

variable {srv : Server} {timed : Bool} {l later : Loop} {trace : List Observation}
  {first : Packet}

theorem lively_readPacket (lively : l.input.stream.Lively) (buf : Bytes)
    : (l.readPacket srv buf).later.stream.Lively :=
  readPacket_keeps (P := fun b : Buffered => b.stream.Lively) lively
    (fun positive fit => (Buffered.read_spec positive _).lively fit) buf

section

variable
  (shape : rest = []
    ∨ ∃ p : Packet, p.Fits srv.packetLimit ∧ rest <+: p.frame ∧ rest ≠ p.frame)
  (fits : ∀ p ∈ whole, p.Fits srv.packetLimit)

theorem Follows.received_of (follows : l.Follows first whole rest received)
    : received <+: whole.map Packet.request := by
  unfold Follows at follows
  split at follows
  · rw [follows.2.2]
    exact List.nil_prefix
  · exact Reads.received_of follows
  · exact Reads.received_of follows
  · exact Reads.received_of follows
  · exact Reads.received_of follows.1
  · exact Reads.received_of follows.1
  · exact Reads.received_of follows
  · exact Reads.received_of follows
  · exact follows.1
  · exact follows.1
  · exact follows.1
  · exact follows.1

include shape fits in
/-- A read after the look ahead takes the next packet, or is cut off. -/
theorem readPacket_reads (reads : Reads whole rest l.input received [])
    (some_left : l.input.unread ≠ []) (buf : Bytes)
    : (∃ p, (l.readPacket srv buf).packet = .ok p
        ∧ Reads whole rest (l.readPacket srv buf).later received [p])
      ∨ ∃ err, (l.readPacket srv buf).packet = .error err
        ∧ Ends whole rest received l.interrupted (endWith err) := by
  obtain ⟨lively, taken, waiting, split, got, unread⟩ := reads
  cases waiting with
  | nil =>
      have only : Buffered.source.unread l.input = rest := unread
      have some_rest : rest ≠ [] := only ▸ some_left
      have failed : (l.readPacket srv buf).packet = .error (.stream .unexpectedEof) := by
        rw [← only] at shape some_rest
        rw [Loop.readPacket, readPacket_rest shape buf, if_neg some_rest]
      have all : received = whole.map Packet.request := by simp [got, split]
      refine .inr ⟨_, failed, all ▸ List.prefix_rfl, .inr (.inr ⟨all, ?_⟩)⟩
      exact iff_of_false nofun some_rest
  | cons q qs =>
      have left : Buffered.source.unread l.input = q.frame ++ (frames qs ++ rest) := by
        rw [← List.append_assoc, ← frames_cons]
        exact unread
      obtain ⟨packet, after⟩ := readPacket_whole (fits q (by simp [split])) left buf
      refine .inl ⟨q, packet, lively_readPacket lively buf, taken, qs, ?_, got, after⟩
      simp [split]

/-- Giving the stream up takes nothing from it. -/
theorem Follows.interrupt (follows : l.Follows first whole rest received) (expired : Bool)
    : Follows first whole rest { l with expired, interrupted := true } received := by
  have ends {result : Option SessionError} (ended : Ends whole rest received l.interrupted result)
      : Ends whole rest received true result := ⟨ended.1, .inl rfl⟩
  cases stage : l.stage with
  | took slot packet =>
      cases packet with
      | error err =>
          simp only [Follows, stage] at follows ⊢
          exact ends follows
      | ok p =>
          simp only [Follows, stage] at follows ⊢
          exact follows
  | waiting result | closing result program | returned result =>
      simp only [Follows, stage] at follows ⊢
      exact ends follows
  | _ =>
      simp only [Follows, stage] at follows ⊢
      exact follows

/-- The first packet is the one that is accepted. -/
theorem Follows.opens (follows : l.Follows first whole rest received)
    (stage : l.stage = .negotiating) (firstFits : first.Fits srv.packetLimit)
    : (l.readPacket srv []).packet = .ok first
      ∧ Reads whole rest (l.readPacket srv []).later [] [] ∧ received = [] := by
  simp only [Follows, stage] at follows
  obtain ⟨lively, unread, nothing⟩ := follows
  have left : Buffered.source.unread l.input = first.frame ++ (frames whole ++ rest) := unread
  obtain ⟨packet, after⟩ := readPacket_whole firstFits left []
  exact ⟨packet, ⟨lively_readPacket lively [], [], whole, rfl, rfl, after⟩, nothing⟩

include shape fits in
/-- One step keeps a session on its stream. -/
theorem Step.follows (step : Step srv timed l trace later)
    (firstFits : first.Fits srv.packetLimit) {reply : VersionReply}
    (welcome : negotiate srv first.typ first.payload = .ok reply)
    (follows : l.Follows first whole rest received)
    : later.Follows first whole rest (received ++ receivedOf trace) := by
  have ends (reads : Reads whole rest l.input received []) (err : LinkError)
      : Ends whole rest (received ++ []) l.interrupted (some (.link err)) := by
    rw [List.append_nil]
    exact ⟨reads.received_of, .inr (.inl ⟨err, rfl⟩)⟩
  have quiet (nothing : receivedOf trace = []) : received ++ receivedOf trace = received := by
    rw [nothing, List.append_nil]
  cases step with
  | negotiated stage reads accepted sent unfailed =>
      obtain ⟨_, opened, rfl⟩ := follows.opens stage firstFits
      exact opened
  | silent stage reads all =>
      rw [(follows.opens stage firstFits).1] at reads
      cases reads
  | refused stage reads rejected all =>
      obtain ⟨packet, _, _⟩ := follows.opens stage firstFits
      cases packet.symm.trans reads
      rw [welcome] at rejected
      cases rejected
  | @unanswered p reply link err order stage reads accepted sent failed all =>
      obtain ⟨_, _, rfl⟩ := follows.opens stage firstFits
      exact ⟨List.nil_prefix, .inr (.inl ⟨err, rfl⟩)⟩
  | @failed err stage failed =>
      simp only [Follows, stage] at follows ⊢
      exact ends follows err
  | peeked stage peeks =>
      simp only [Follows, stage, quiet rfl] at follows ⊢
      exact follows.peeks.1 peeks
  | @ended err stage peeks =>
      simp only [Follows, stage, quiet rfl] at follows ⊢
      refine ⟨follows.received_of, ?_⟩
      rcases peeks with peeks | interrupted
      · obtain ⟨rfl, clean, all⟩ := follows.peeks.2 err peeks
        exact .inr (.inr ⟨all, iff_of_true rfl clean⟩)
      · exact .inl interrupted
  | begun stage some_free =>
      simp only [Follows, stage, quiet rfl] at follows ⊢
      exact follows
  | @unbegun err stage =>
      simp only [Follows, stage] at follows ⊢
      exact ends follows.1 err
  | @read slot stage =>
      simp only [Follows, stage, quiet rfl] at follows ⊢
      rcases readPacket_reads shape fits follows.1 follows.2 slot.inBuf with
        ⟨p, packet, reads⟩ | ⟨err, packet, ends⟩
      · rw [packet]
        exact reads
      · rw [packet]
        exact ends
  | cut stage interrupted within =>
      simp only [Follows, stage, quiet rfl] at follows ⊢
      exact ⟨follows.1.received_of, .inl interrupted⟩
  | went stage prepared =>
      simp only [Follows, stage] at follows ⊢
      exact follows.takes
  | early stage alone prepared delivered =>
      simp only [Follows, stage] at follows ⊢
      exact follows.takes
  | dispatched stage alone prepared =>
      simp only [Follows, stage] at follows ⊢
      exact follows.takes
  | flew answer inFlight asks =>
      rw [quiet rfl]
      exact follows
  | landed first returns delivered =>
      rw [quiet rfl]
      exact follows
  | expired armed =>
      rw [quiet rfl]
      exact follows
  | gaveUp expired =>
      rw [quiet rfl]
      exact follows.interrupt _
  | _ =>
      -- The stage after stands for the same place in the stream.
      rw [quiet rfl]
      simp_all only [Follows]

include shape fits in
/-- Every run keeps a session on its stream, by induction on the steps. -/
theorem Run.follows (run : Run srv timed l trace later)
    (firstFits : first.Fits srv.packetLimit) {reply : VersionReply}
    (welcome : negotiate srv first.typ first.payload = .ok reply)
    (start : l.Follows first whole rest received)
    : later.Follows first whole rest (received ++ receivedOf trace) := by
  induction run with
  | refl => simpa [receivedOf] using start
  | @step middle last early late _ step ih =>
      have both : receivedOf (early ++ late) = receivedOf early ++ receivedOf late :=
        List.filterMap_append
      rw [both, ← List.append_assoc]
      exact step.follows shape fits firstFits welcome ih

include shape fits in
theorem Run.tells {n : Nat} {input : Buffered} (run : Run srv timed (initial n input) trace l)
    (firstFits : first.Fits srv.packetLimit) {reply : VersionReply}
    (welcome : negotiate srv first.typ first.payload = .ok reply)
    (start : (initial n input).Follows first whole rest received)
    : l.Tells srv (repliesOf trace) := by
  generalize begins : initial n input = opening at run
  induction run with
  | refl =>
      subst begins
      exact ⟨fun _ => ⟨rfl, rfl⟩, fun begun => absurd rfl begun⟩
  | @step middle last early late run step ih =>
      subst begins
      rw [repliesOf_append]
      refine step.tells (run.quiet (quiet_initial n input)) (fun stage => ?_) ih
      have follows := run.follows shape fits firstFits welcome start
      exact ⟨first, reply, (follows.opens stage firstFits).1, welcome⟩

end

end Loop

/-- A client sends INIT and then requests, `k` bytes of them, in packets that fit and in pieces
of any size; INIT is accepted. Whatever the driver answers, in whichever order jobs end, whether
or not the timer runs out and wherever a write fails: what has reached the client is VERSION first
and then replies, whole and in the order of their requests, and once a write has failed a part of
a reply that follows those, the very next one if nothing failed before; or no more than a part of
VERSION, and then nothing was replied. The requests received are those replied to, in order, and
then those pending; each reply is under its request's id; and no request is received that was not
sent. The client reads back what has reached it, which is all if nothing failed. And a session
that returns undisturbed has answered every whole packet, and returns nil just if no part of one
was left.
-/
theorem replies_reach_client_in_order (srv : Server) (timed : Bool) (n k : Nat)
    (input : Buffered) (first : Packet) (ps : List Packet) {reply : VersionReply}
    (welcome : negotiate srv first.typ first.payload = .ok reply)
    (firstFits : first.Fits srv.packetLimit) (fits : ∀ p ∈ ps, p.Fits srv.packetLimit)
    (within : k ≤ (frames ps).length) (lively : input.stream.Lively)
    (unread : input.unread = first.frame ++ (frames ps).take k)
    {trace : List Observation} {l : Loop}
    (run : Loop.Run srv timed (Loop.initial n input) trace l)
    : (∃ sent torn,
        l.link.output = frames (sent.map Message.packet) ++ torn
        ∧ (∀ (σ : Type) (source : Source σ) (s : σ) (bufs : List Bytes),
          source.unread s = l.link.output
          → bufs.length ≤ sent.length
          → (readPackets source 0 bufs s).1
            = ((sent.map Message.packet).take bufs.length).map .ok)
        ∧ (sent = [] ∧ repliesOf trace = [] ∧ torn <+: (hello srv).packet.frame
          ∨ ∃ replies, sent = hello srv :: replies
            ∧ replies.Sublist (repliesOf trace)
            ∧ (torn ≠ [] → ∃ m,
              torn <+: m.packet.frame
              ∧ (replies ++ [m]).Sublist (repliesOf trace)
              ∧ (l.link.failed = some .write → replies ++ [m] <+: repliesOf trace)))
        ∧ (l.link.dead = false → torn = [])
        ∧ (l.link.failed = none → l.stage ≠ .negotiating
          → sent = hello srv :: repliesOf trace ∧ torn = []))
      ∧ receivedOf trace = repliedOf trace ++ l.session.pending
      ∧ (∀ typ payload reply, .replied typ payload reply ∈ trace
        → replyID reply = requestID payload)
      ∧ receivedOf trace <+: (wholeWithin ps k).map Packet.request
      ∧ (∀ result, l.stage = .returned result → l.interrupted = false
        → (∀ err, result ≠ some (.link err))
        → repliedOf trace = (wholeWithin ps k).map Packet.request
          ∧ (result = none ↔ IsBoundary ps k)) := by
  obtain ⟨rest, split, boundary, shape⟩ := take_frames ps within
  have wholeFits : ∀ p ∈ wholeWithin ps k, p.Fits srv.packetLimit :=
    fun p member => fits p (mem_of_mem_wholeWithin member)
  have start : (Loop.initial n input).Follows first (wholeWithin ps k) rest [] :=
    ⟨lively, split ▸ unread, rfl⟩
  have follows := run.follows (shape_fits shape fits) wholeFits firstFits welcome start
  have tells := run.tells (shape_fits shape fits) wholeFits firstFits welcome start
  have session := run.session (Loop.quiet_initial n input)
  rw [List.nil_append] at follows
  refine ⟨?_, run.in_order, ?_, follows.received_of, ?_⟩
  · have reads {sent : List Message} {torn : Bytes}
        (output : l.link.output = frames (sent.map Message.packet) ++ torn)
        (readable : ∀ m ∈ sent, m.packet.Fits 0) (σ : Type) (source : Source σ) (s : σ)
        (bufs : List Bytes) (got : source.unread s = l.link.output)
        (few : bufs.length ≤ sent.length)
        : (readPackets source 0 bufs s).1
          = ((sent.map Message.packet).take bufs.length).map .ok :=
      (readPackets_whole (List.forall_mem_map.mpr readable) bufs (by simpa using few)
        (got.trans output)).1
    by_cases begun : l.stage = .negotiating
    · obtain ⟨nothing, fresh⟩ := tells.before begun
      have output : l.link.output = frames (([] : List Message).map Message.packet) ++ [] := by
        rw [fresh]
        rfl
      exact ⟨[], [], output, reads output (by simp), .inl ⟨rfl, nothing, List.nil_prefix⟩,
        fun _ => rfl, fun _ onwards => absurd begun onwards⟩
    rcases tells.after begun with ⟨replies, torn, carries⟩ | ⟨nothing, ungreeted⟩
    · refine ⟨hello srv :: replies, torn, carries.output, reads carries.output carries.readable,
        .inr ⟨replies, rfl, carries.ordered, fun some => ?_⟩, carries.whole, fun unfailed _ => ?_⟩
      · exact carries.part (by simpa using mt carries.whole some)
      · obtain ⟨all, alive⟩ := carries.all unfailed
        exact ⟨by rw [all], carries.whole alive⟩
    · have output : l.link.output
          = frames (([] : List Message).map Message.packet) ++ l.link.output := rfl
      exact ⟨[], l.link.output, output, reads output (by simp),
        .inl ⟨rfl, nothing, ungreeted.part.1⟩, ungreeted.part.2,
        fun unfailed _ => absurd unfailed ungreeted.failed⟩
  · exact (session.safe (fun _ _ => trivial) (receives_any srv trace)).2.replies
  · intro result returned undisturbed unfailed
    have answered : receivedOf trace = repliedOf trace := by
      have alone := run.quiet (Loop.quiet_initial n input) (by rw [returned]; rfl)
      rw [run.in_order, Session.pending, Loop.session, returned, alone]
      exact List.append_nil _
    simp only [Loop.Follows, returned] at follows
    rcases follows.2 with interrupted | ⟨err, failed⟩ | ⟨all, clean⟩
    · rw [undisturbed] at interrupted
      cases interrupted
    · exact absurd failed (unfailed err)
    · exact ⟨answered ▸ all, clean.trans boundary⟩

/-- A session that waits takes the packet that is there, if it has a slot. -/
theorem Loop.Run.taking {srv : Server} {timed : Bool} {start l : Loop}
    {trace : List Observation} (run : Loop.Run srv timed start trace l)
    (stage : l.stage = .checking) (unfailed : l.link.failed = none) {slot : Slot}
    {others : List Slot} (free : l.free = slot :: others) (peeks : l.input.peek.1 = none)
    {p : Packet}
    (packet : (Wire.readPacket Buffered.source slot.inBuf srv.packetLimit l.input.peek.2).packet
      = .ok p)
    : ∃ buf,
        Loop.Run srv timed start trace
          {
            l with
            stage := .scheduling { slot with inBuf := buf } p
            free := others
            input :=
              (Wire.readPacket Buffered.source slot.inBuf srv.packetLimit l.input.peek.2).later
            armed := false
          } := by
  have peeked := (run.step (.checked stage unfailed)).step (.peeked rfl peeks)
  have begun := peeked.step (@Loop.Step.begun _ _ _ [] others slot rfl free)
  have took := begun.step (.read rfl)
  simp only [Loop.readPacket, packet] at took
  have taken := took.step (.stopped rfl)
  simp only [List.append_nil] at taken
  exact ⟨_, taken⟩

/-- A server that exports a driver without extras. -/
def bareServer : Server := ⟨false, false, false, false, true, 0, 0⟩

/-- INIT, and a request of a type that is not served. -/
def greeting : Packet := ⟨fxpInit, [0, 0, 0, 3]⟩

def oddRequest : Packet := ⟨99, [0, 0, 0, 1]⟩

/-- The two in one piece. -/
def oddInput : Buffered :=
  ⟨4096, by decide, [], none, ⟨[greeting.frame ++ oddRequest.frame], false⟩, nofun⟩

theorem greeting_welcome
    : negotiate bareServer greeting.typ greeting.payload
      = .ok { version, extensions := bareServer.extensions } := by
  have decodes : decodeInit [0, 0, 0, 3] = .ok { version := 3, extensions := [] } := by decide
  simp [negotiate, decodes, version, greeting]

theorem odd_fits : ∀ p ∈ [greeting, oddRequest], p.Fits bareServer.packetLimit := by
  intro p member
  rcases List.mem_pair.mp member with rfl | rfl <;> exact ⟨by decide, by decide⟩

theorem oddInput_lively : oddInput.stream.Lively := by
  intro rest suffix
  have few : rest.length ≤ 1 := suffix.length_le
  have idle := (List.takeWhile_sublist (l := rest) List.isEmpty).length_le
  simp only [Stream.idle, Stream.maxEmptyReads]
  omega

theorem oddInput_unread : oddInput.unread = greeting.frame ++ oddRequest.frame := by
  simp [Buffered.unread, Stream.unread, oddInput]

/-- The request is refused, and the session returns. -/
theorem Loop.Run.refusing
    : let refusal := status 1 statusOpUnsupported (text "unsupported request type")
      ∃ trace l,
        Loop.Run bareServer true (Loop.initial 1 oddInput) trace l
        ∧ l.stage = .returned none
        ∧ l.link.failed = none
        ∧ repliesOf trace = [refusal]
        ∧ repliedOf trace = [oddRequest.request] := by
  intro refusal
  obtain ⟨opens, left⟩ := @readPacket_whole _ Buffered.source oddInput _ greeting _
    (odd_fits greeting (by simp)) oddInput_unread []
  have greeted := Loop.Run.step (.refl (Loop.initial 1 oddInput))
    (@Loop.Step.negotiated bareServer true _ _ _ _ rfl opens greeting_welcome (.written rfl rfl)
      rfl)
  have opened := @Loop.lively_readPacket bareServer (Loop.initial 1 oddInput) oddInput_lively []
  simp only [Loop.readPacket, Loop.initial] at greeted opened
  generalize (Wire.readPacket Buffered.source [] bareServer.packetLimit oddInput).later = waiting
    at *
  have left : waiting.unread = oddRequest.frame := left
  obtain ⟨looks, same, ahead⟩ := Buffered.peek_spec opened
  rw [if_neg (left.trans_ne (by simp [Packet.frame]))] at looks
  obtain ⟨packet, after⟩ := @readPacket_whole _ Buffered.source waiting.peek.2 _ oddRequest []
    (odd_fits oddRequest (by simp)) (by rw [List.append_nil]; exact same.trans left) []
  have kept := @Loop.lively_readPacket bareServer { free := [], input := waiting.peek.2 } ahead []
  obtain ⟨buf, taken⟩ := greeted.taking rfl rfl rfl looks packet
  simp only [Loop.readPacket] at taken kept
  generalize (Wire.readPacket Buffered.source [] bareServer.packetLimit waiting.peek.2).later
    = empty at *
  have after : empty.unread = [] := after
  have ends := (Buffered.peek_spec kept).1
  rw [if_pos after] at ends
  have framed : (frame refusal []).1 = .ok refusal.packet.frame :=
    writePacket_frame (p := refusal.packet) (by decide) []
  have dispatched := taken.step (.dispatched rfl rfl rfl)
  have answered := dispatched.step (.answered rfl (.written framed rfl))
  have ended := (answered.step (.checked rfl rfl)).step (.ended rfl (.inl ends))
  have returned := (ended.step (.waited rfl rfl .rfl)).step (.returned rfl)
  exact ⟨_, _, returned, rfl, rfl, rfl, rfl⟩

/-- The client reads VERSION and the refusal. -/
theorem replies_reach_client_in_order_refusing
    : ∃ trace l,
        Loop.Run bareServer true (Loop.initial 1 oddInput) trace l
        ∧ l.stage = .returned none
        ∧ l.link.output = frames [(hello bareServer).packet,
            (status 1 statusOpUnsupported (text "unsupported request type")).packet] := by
  obtain ⟨trace, l, run, returned, unfailed, replies, _⟩ := Loop.Run.refusing
  obtain ⟨⟨sent, torn, output, _, _, _, all⟩, _⟩ :=
    replies_reach_client_in_order bareServer true 1 (frames [oddRequest]).length oddInput greeting
      [oddRequest] greeting_welcome (odd_fits greeting (by simp))
      (fun p member => odd_fits p (by simp_all)) le_rfl oddInput_lively
      (by rw [List.take_length, oddInput_unread, frames_cons, frames_nil, List.append_nil]) run
  obtain ⟨rfl, rfl⟩ := all unfailed (by rw [returned]; nofun)
  rw [replies] at output
  exact ⟨trace, l, run, returned, output⟩

end SftpServer.Sftp
