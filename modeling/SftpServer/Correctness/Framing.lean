import SftpServer.Correctness.Replies
import SftpServer.Sftp.Input

/-! The packets of a stream are what a session is asked, however the stream arrives, and the
session returns nil exactly if the stream ends between two of them.
-/

namespace SftpServer.Sftp

open SftpServer.Foundations
open SftpServer.Wire

/-- The loop of `run` has not returned yet. -/
def Phase.looping : Phase → Bool
  | .serving | .answering _ _ _ => true
  | .negotiating | .draining | .closing _ | .returned => false

/-- What goes on beside the reading neither ends the loop nor starts it again. -/
theorem Session.Step.looping_beside {srv : Server} {s later : Session}
    {trace : List Observation} (step : Session.Step srv s trace later)
    (negotiated : s.phase ≠ .negotiating)
    (quiet : ∀ typ payload, .received typ payload ∉ trace)
    (goesOn : s.phase = .serving → later.phase = .serving)
    : later.phase.looping = s.phase.looping := by
  cases step with
  | negotiated phase accepted => exact absurd phase negotiated
  | refused phase => exact absurd phase negotiated
  | started phase prepared => exact absurd (List.mem_cons_self ..) (quiet _ _)
  | early phase alone prepared => rfl
  | dispatched phase alone prepared => exact absurd (List.mem_cons_self ..) (quiet _ _)
  | advanced answer phase => simp [phase, Phase.looping]
  | answered phase => simp [phase, Phase.looping]
  | flew answer inFlight asks => rfl
  | landed inFlight returns => rfl
  | hungUp phase => exact absurd (goesOn phase) (by simp)
  | drained phase alone all => simp [phase, Phase.looping]
  | closed answer phase => simp [phase, Phase.looping]
  | returned phase => simp [phase, Phase.looping]

/-- A step that takes a packet takes no other, and the loop goes on. -/
theorem Session.Step.looping_taking {srv : Server} {s later : Session}
    {trace : List Observation} {typ : UInt8} {payload : Bytes}
    (step : Session.Step srv s trace later)
    (takes : trace.head? = some (.received typ payload))
    : later.phase.looping = true ∧ receivedOf trace = [(typ, payload)] := by
  cases step with
  | started phase prepared =>
      cases takes
      exact ⟨by simp [phase, Phase.looping], rfl⟩
  | early phase alone prepared =>
      cases takes
      exact ⟨by simp [phase, Phase.looping], rfl⟩
  | dispatched phase alone prepared =>
      cases takes
      exact ⟨rfl, rfl⟩
  | _ => simp at takes

/-- A session negotiates only once. -/
theorem Session.Step.stays_negotiated {srv : Server} {s later : Session}
    {trace : List Observation} (step : Session.Step srv s trace later)
    (negotiated : s.phase ≠ .negotiating)
    : later.phase ≠ .negotiating := by
  cases step with
  | negotiated phase accepted => exact absurd phase negotiated
  | refused phase => exact absurd phase negotiated
  | started phase prepared => exact negotiated
  | early phase alone prepared => exact negotiated
  | flew answer inFlight asks => exact negotiated
  | landed inFlight returns => exact negotiated
  | _ => nofun

/-- What is left of a cut stream is of a packet that fits, if it is of any. -/
theorem shape_fits {ps : List Packet} {rest : Bytes} {limit : Int}
    (shape : rest = [] ∨ ∃ p ∈ ps, rest <+: p.frame ∧ rest ≠ p.frame)
    (fits : ∀ p ∈ ps, p.Fits limit)
    : rest = [] ∨ ∃ p : Packet, p.Fits limit ∧ rest <+: p.frame ∧ rest ≠ p.frame := by
  rcases shape with nothing | ⟨p, member, inside⟩
  · exact .inl nothing
  · exact .inr ⟨p, fits p member, inside⟩

namespace Fed

/-- How far a session has got on a stream that holds the packets `whole` and then `rest`:
before its loop returns, some of the packets are taken and the others unread; after it, all
are taken, and the loop returned nil exactly if nothing was left.
-/
structure Follows (whole : List Packet) (rest : Bytes) (f : Fed)
    (received : List (UInt8 × Bytes))
    : Prop where
  lively : f.input.stream.Lively
  reading : f.outcome = none
    → f.session.phase.looping = true
      ∧ ∃ taken waiting,
          whole = taken ++ waiting
          ∧ received = taken.map (fun p => (p.typ, p.payload))
          ∧ f.input.unread = frames waiting ++ rest
  finished : ∀ result, f.outcome = some result
    → f.session.phase.looping = false
      ∧ received = whole.map (fun p => (p.typ, p.payload))
      ∧ (result = none ↔ rest = [])

variable {srv : Server} {whole : List Packet} {rest : Bytes} {f later : Fed}
  {received : List (UInt8 × Bytes)} {trace : List Observation}

/-- Before the loop returns there is no outcome. -/
theorem Follows.waiting (follows : Follows whole rest f received)
    (loops : f.session.phase.looping = true)
    : f.outcome = none
      ∧ ∃ taken waiting,
          whole = taken ++ waiting
          ∧ received = taken.map (fun p => (p.typ, p.payload))
          ∧ f.input.unread = frames waiting ++ rest := by
  cases outcome : f.outcome with
  | none => exact ⟨rfl, (follows.reading outcome).2⟩
  | some result =>
      have ended := (follows.finished result outcome).1
      rw [loops] at ended
      cases ended

/-- The stream stays lively under every read of it. -/
theorem lively_nextPacket (lively : f.input.stream.Lively) (buf : Bytes)
    : (f.nextPacket srv buf).later.stream.Lively := by
  have keeps : ∀ {room : Nat} {b : Buffered}, 0 < room → b.stream.Lively
      → (Buffered.source.read room b).later.stream.Lively :=
    fun positive fit => (Buffered.read_spec positive _).lively fit
  exact readPacket_keeps (P := fun b : Buffered => b.stream.Lively)
    (Buffered.peek_spec lively).2.2 keeps buf

section

variable
  (shape : rest = []
    ∨ ∃ p : Packet, p.Fits srv.packetLimit ∧ rest <+: p.frame ∧ rest ≠ p.frame)
  (fits : ∀ p ∈ whole, p.Fits srv.packetLimit)

include shape fits in
/-- The next read takes the next whole packet, or there is none and the read fails. -/
theorem Follows.nextPacket {taken waiting : List Packet}
    (follows : Follows whole rest f received) (split : whole = taken ++ waiting)
    (unread : f.input.unread = frames waiting ++ rest) (buf : Bytes)
    : (∃ q qs,
        waiting = q :: qs
        ∧ (f.nextPacket srv buf).packet = .ok q
        ∧ (f.nextPacket srv buf).later.unread = frames qs ++ rest)
      ∨ waiting = []
        ∧ (f.nextPacket srv buf).packet
          = .error (.stream (if rest = [] then .eof else .unexpectedEof)) := by
  have left : Buffered.source.unread f.input.peek.2 = frames waiting ++ rest :=
    (Buffered.peek_spec follows.lively).2.1.trans unread
  cases waiting with
  | nil =>
      have only : Buffered.source.unread f.input.peek.2 = rest := left
      refine .inr ⟨rfl, ?_⟩
      rw [← only] at shape ⊢
      exact readPacket_rest shape buf
  | cons q qs =>
      rw [frames_cons, List.append_assoc] at left
      obtain ⟨packet, after⟩ := readPacket_whole (fits q (by simp [split])) left buf
      exact .inl ⟨q, qs, rfl, packet, after⟩

include shape fits in
/-- One step keeps a session on its stream. -/
theorem Step.follows (step : Step srv f trace later)
    (follows : Follows whole rest f received)
    : Follows whole rest later (received ++ receivedOf trace) := by
  have peeks := Buffered.peek_spec follows.lively
  cases step with
  | @took p trace session buf reading peeked reads step takes =>
      obtain ⟨pending, taken, waiting, split, got, unread⟩ :=
        follows.waiting (by rw [reading]; rfl)
      obtain ⟨loops, packet⟩ := step.looping_taking takes
      refine ⟨lively_nextPacket follows.lively buf, fun _ => ⟨loops, ?_⟩, ?_⟩
      · rcases follows.nextPacket shape fits split unread buf with
          ⟨q, qs, rfl, read, after⟩ | ⟨_, failed⟩
        · obtain rfl : p = q := Except.ok.inj (reads.symm.trans read)
          exact ⟨taken ++ [p], qs, by simp [split], by simp [got, packet], after⟩
        · rw [reads] at failed
          cases failed
      · intro result ended
        rw [pending] at ended
        cases ended
  | @ended err reading peeked =>
      obtain ⟨_, taken, waiting, split, got, unread⟩ :=
        follows.waiting (by rw [reading]; rfl)
      rw [peeks.1] at peeked
      split at peeked
      · rename_i empty
        cases peeked
        -- A packet is never empty on the wire, so none is left, and no part of one.
        rw [unread, List.append_eq_nil_iff] at empty
        have none_left : waiting = [] := by
          cases waiting with
          | nil => rfl
          | cons q qs => simp [frames_cons, Packet.frame] at empty
        refine ⟨peeks.2.2, (fun looping => by cases looping), ?_⟩
        intro result ended
        cases ended
        refine ⟨rfl, by simp [receivedOf, got, split, none_left], ?_⟩
        simp [endOfInput, empty.2]
      · cases peeked
  | @broke err buf reading peeked reads =>
      obtain ⟨_, taken, waiting, split, got, unread⟩ :=
        follows.waiting (by rw [reading]; rfl)
      refine ⟨lively_nextPacket follows.lively buf, (fun looping => by cases looping), ?_⟩
      intro result ended
      cases ended
      rcases follows.nextPacket shape fits split unread buf with
        ⟨q, qs, _, read, _⟩ | ⟨rfl, failed⟩
      · rw [reads] at read
        cases read
      · have some_left : rest ≠ [] := by
          intro empty
          rw [peeks.1, unread, empty] at peeked
          simp at peeked
        obtain rfl := Except.error.inj (reads.symm.trans failed)
        refine ⟨rfl, by simp [receivedOf, got, split], ?_⟩
        simp [endOfInput, some_left]
  | beside step negotiated quiet goesOn =>
      have same := step.looping_beside negotiated quiet goesOn
      have nothing : receivedOf trace = [] := by
        refine List.filterMap_eq_nil_iff.mpr fun observation member => ?_
        cases observation with
        | received typ payload => exact absurd member (quiet typ payload)
        | event _ => rfl
        | replied _ _ _ => rfl
      rw [nothing, List.append_nil]
      refine ⟨follows.lively, fun pending => ?_, fun result ended => ?_⟩
      · exact ⟨same.trans (follows.reading pending).1, (follows.reading pending).2⟩
      · exact ⟨same.trans (follows.finished result ended).1, (follows.finished result ended).2⟩

include shape fits in
/-- Every run keeps a session on its stream, by induction on the steps. -/
theorem Run.follows (run : Run srv f trace later)
    (start : Follows whole rest f received)
    : Follows whole rest later (received ++ receivedOf trace) := by
  induction run with
  | refl => simpa [receivedOf] using start
  | @step middle last early late _ step ih =>
      have both : receivedOf (early ++ late) = receivedOf early ++ receivedOf late :=
        List.filterMap_append
      rw [both, ← List.append_assoc]
      exact step.follows shape fits ih

end

-----------------------------------------------------------------------------------------
-- A fed session can always come to its end
-----------------------------------------------------------------------------------------

/-- The first request in flight can be answered, by induction on what is left of it. -/
theorem Run.landing (srv : Server) {flight : Flight} {others : List Flight}
    (negotiated : f.session.phase ≠ .negotiating)
    (inFlight : f.session.flights = [] ++ flight :: others)
    : ∃ trace, Run srv f trace { f with session := { f.session with flights := others } } := by
  obtain ⟨typ, payload, span, program⟩ := flight
  induction program generalizing f with
  | ret reply =>
      have landed : Session.Step srv f.session [.replied typ payload reply]
          { f.session with flights := [] ++ others } :=
        .landed inFlight rfl
      exact ⟨_, .single (.beside landed negotiated (by simp) id)⟩
  | ask effect next ih =>
      have flew : Session.Step srv f.session [.event ⟨effect, default⟩]
          {
            f.session with
            flights := [] ++ ⟨typ, payload, span, next default⟩ :: others
          } :=
        .flew default inFlight rfl
      obtain ⟨_, rest⟩ := ih default
        (f := { f with session := { f.session with
          flights := [] ++ ⟨typ, payload, span, next default⟩ :: others } }) negotiated rfl
      exact ⟨_, (Run.single (.beside flew negotiated (by simp) id)).trans rest⟩

/-- All requests in flight can be answered, by induction on their list. -/
theorem Run.landingAll (srv : Server) (negotiated : f.session.phase ≠ .negotiating)
    : ∃ trace, Run srv f trace { f with session := { f.session with flights := [] } } := by
  generalize inFlight : f.session.flights = flights
  induction flights generalizing f with
  | nil =>
      refine ⟨[], ?_⟩
      rw [← inFlight]
      exact .refl f
  | cons flight others ih =>
      obtain ⟨_, first⟩ := Run.landing srv negotiated inFlight
      obtain ⟨_, rest⟩ := ih
        (f := { f with session := { f.session with flights := others } }) negotiated rfl
      exact ⟨_, first.trans rest⟩

/-- The request that runs alone can be answered, by induction on what is left of it. -/
theorem Run.answering (srv : Server) {typ : UInt8} {payload : Bytes}
    {program : Prog (Message × Handles)}
    (phase : f.session.phase = .answering typ payload program)
    : ∃ trace handles,
        Run srv f trace { f with session := { f.session with phase := .serving, handles } } := by
  induction program generalizing f with
  | ret result =>
      have answered : Session.Step srv f.session [.replied typ payload result.1]
          { f.session with phase := .serving, handles := result.2 } :=
        .answered phase
      exact ⟨_, _, .single (.beside answered (by simp [phase]) (by simp) fun _ => rfl)⟩
  | ask effect next ih =>
      have advanced : Session.Step srv f.session [.event ⟨effect, default⟩]
          { f.session with phase := .answering typ payload (next default) } :=
        .advanced default phase
      obtain ⟨_, handles, rest⟩ := ih default
        (f := { f with session := { f.session with
          phase := .answering typ payload (next default) } }) rfl
      have first := Run.single (.beside advanced (by simp [phase]) (by simp) (by simp [phase]))
      exact ⟨_, handles, first.trans rest⟩

/-- The handles can be closed, by induction on the closing. -/
theorem Run.closing (srv : Server) {program : Prog (Option DriverError)}
    (phase : f.session.phase = .closing program)
    : ∃ trace last, Run srv f trace last ∧ last.session.phase = .returned := by
  induction program generalizing f with
  | ret result =>
      have returned : Session.Step srv f.session []
          { f.session with phase := .returned, handles := ∅ } :=
        .returned phase
      exact ⟨_, _, .single (.beside returned (by simp [phase]) (by simp) (by simp [phase])),
        rfl⟩
  | ask effect next ih =>
      have closed : Session.Step srv f.session [.event ⟨effect, default⟩]
          { f.session with phase := .closing (next default) } :=
        .closed default phase
      obtain ⟨_, last, rest, finished⟩ := ih default
        (f := { f with session := { f.session with phase := .closing (next default) } }) rfl
      have first := Run.single (.beside closed (by simp [phase]) (by simp) (by simp [phase]))
      exact ⟨_, last, first.trans rest, finished⟩

/-- A session whose loop has returned can return. -/
theorem Run.draining (srv : Server) (phase : f.session.phase = .draining)
    : ∃ trace last, Run srv f trace last ∧ last.session.phase = .returned := by
  have negotiated : f.session.phase ≠ .negotiating := by simp [phase]
  obtain ⟨_, landed⟩ := Run.landingAll srv negotiated
  let alone : Session := { f.session with flights := [] }
  let shut : Session := { alone with phase := .closing (closeAll alone.handles.openFiles) }
  have drained : Session.Step srv alone [] shut := .drained phase rfl .rfl
  have closing : Run srv { f with session := alone } [] { f with session := shut } :=
    .single (.beside drained negotiated (by simp) (by simp [alone, phase]))
  obtain ⟨_, last, closes, finished⟩ := Run.closing srv (f := { f with session := shut }) rfl
  exact ⟨_, last, (landed.trans closing).trans closes, finished⟩

/-- Whatever a packet asks, a session with nothing in flight can answer it. -/
theorem Run.answeringNext (srv : Server) {p : Packet} {buf : Bytes}
    (serving : f.session.phase = .serving) (alone : f.session.flights = [])
    (peeked : f.input.peek.1 = none) (reads : (f.nextPacket srv buf).packet = .ok p)
    : ∃ trace handles,
        Run srv f trace
          {
            f with
            session := { f.session with handles }
            input := (f.nextPacket srv buf).later
          } := by
  obtain ⟨⟨phase, handles, flights⟩, input, outcome⟩ := f
  subst serving alone
  generalize left : (nextPacket srv buf ⟨⟨.serving, handles, []⟩, input, outcome⟩).later = later
  rcases prepared : prepare srv handles p.typ p.payload with ⟨job, early⟩
  have either := prepare_either srv handles p.typ p.payload
  rw [prepared] at either
  cases job with
  | some job =>
      obtain rfl : early = none := by simpa using either
      have first := Run.single (.took buf rfl peeked reads (.started rfl prepared) rfl)
      rw [left] at first
      let flight : Flight := ⟨p.typ, p.payload, job.span, job.run⟩
      obtain ⟨_, landed⟩ := Run.landingAll srv
        (f := ⟨⟨.serving, handles, [flight]⟩, later, outcome⟩) nofun
      exact ⟨_, handles, first.trans landed⟩
  | none =>
      cases early with
      | some reply =>
          have answered := Run.single
            (.took buf rfl peeked reads (.early rfl rfl prepared) rfl)
          rw [left] at answered
          exact ⟨_, handles, answered⟩
      | none =>
          have first := Run.single
            (.took buf rfl peeked reads (.dispatched rfl rfl prepared) rfl)
          rw [left] at first
          let program := dispatch srv handles p.typ p.payload
          obtain ⟨_, registered, rest⟩ := Run.answering srv
            (f := ⟨⟨.answering p.typ p.payload program, handles, []⟩, later, outcome⟩) rfl
          exact ⟨_, registered, first.trans rest⟩

theorem Run.negotiated (run : Run srv f trace later)
    (negotiated : f.session.phase ≠ .negotiating)
    : later.session.phase ≠ .negotiating := by
  induction run with
  | refl => exact negotiated
  | step _ step ih => exact step.session.stays_negotiated ih

section

variable
  (shape : rest = []
    ∨ ∃ p : Packet, p.Fits srv.packetLimit ∧ rest <+: p.frame ∧ rest ≠ p.frame)
  (fits : ∀ p ∈ whole, p.Fits srv.packetLimit)

include shape fits in
/-- A session that waits for packets with nothing in flight can return, by induction on the
bytes it has not read.
-/
theorem Follows.returns_serving (follows : Follows whole rest f received)
    (serving : f.session.phase = .serving) (alone : f.session.flights = [])
    : ∃ trace last, Run srv f trace last ∧ last.session.phase = .returned := by
  generalize size : f.input.unread.length = left
  induction left using Nat.strong_induction_on generalizing f received with
  | _ left ih =>
      obtain ⟨_, taken, waiting, split, _, unread⟩ :=
        follows.waiting (by rw [serving]; rfl)
      have peeks := (Buffered.peek_spec follows.lively).1
      by_cases empty : f.input.unread = []
      · rw [if_pos empty] at peeks
        have ended : Run srv f [] (f.stop f.input.peek.2 (.stream .eof)) :=
          .single (.ended serving peeks)
        obtain ⟨_, last, returns, finished⟩ := Run.draining srv
          (f := f.stop f.input.peek.2 (.stream .eof)) rfl
        exact ⟨_, last, ended.trans returns, finished⟩
      rw [if_neg empty] at peeks
      rcases follows.nextPacket shape fits split unread [] with
        ⟨q, qs, rfl, read, after⟩ | ⟨_, failed⟩
      · obtain ⟨_, handles, answers⟩ := Run.answeringNext srv serving alone peeks read
        have shorter : (f.nextPacket srv []).later.unread.length < left := by
          have first := q.length_frame
          rw [after, ← size, unread, frames_cons]
          simp only [List.length_append]
          omega
        obtain ⟨_, last, returns, finished⟩ :=
          ih _ shorter (answers.follows shape fits follows) serving alone rfl
        exact ⟨_, last, answers.trans returns, finished⟩
      · have broke := Run.single (.broke [] serving peeks failed)
        obtain ⟨_, last, returns, finished⟩ := Run.draining srv (f := f.stop _ _) rfl
        exact ⟨_, last, broke.trans returns, finished⟩

include shape fits in
/-- Wherever a session is on its stream, it can come to return. -/
theorem Follows.returns (follows : Follows whole rest f received)
    (negotiated : f.session.phase ≠ .negotiating)
    : ∃ trace last, Run srv f trace last ∧ last.session.phase = .returned := by
  obtain ⟨_, landed⟩ := Run.landingAll srv negotiated
  have alone := landed.follows shape fits follows
  cases phase : f.session.phase with
  | negotiating => exact absurd phase negotiated
  | serving =>
      obtain ⟨_, last, returns, finished⟩ := alone.returns_serving shape fits phase rfl
      exact ⟨_, last, landed.trans returns, finished⟩
  | answering typ payload program =>
      obtain ⟨_, handles, answered⟩ := Run.answering srv
        (f := { f with session := { f.session with flights := [] } }) phase
      obtain ⟨_, last, returns, finished⟩ :=
        (answered.follows shape fits alone).returns_serving shape fits rfl rfl
      exact ⟨_, last, (landed.trans answered).trans returns, finished⟩
  | draining => exact Run.draining srv phase
  | closing program => exact Run.closing srv phase
  | returned => exact ⟨[], f, .refl f, phase⟩

end

end Fed

/-- Packets that fit are framed: `ReadPacket` takes them back one by one from any source of
their bytes, with any buffers; if the bytes are cut, it takes back the whole ones and then
tells a clean end from a cut packet; and a negotiated session that reads a cut stream can
always come to return, after it has taken exactly the whole packets, with nil exactly at a
boundary.
-/
theorem packets_framed {σ : Type} (source : Source σ) (limit : Int) (ps : List Packet)
    (fits : ∀ p ∈ ps, p.Fits limit)
    : (∀ p ∈ ps, ∀ out, (writePacket p.typ p.payload out).1 = .ok p.frame)
      ∧ (∀ s bufs,
          source.unread s = frames ps
          → bufs.length ≤ ps.length
          → (readPackets source limit bufs s).1 = (ps.take bufs.length).map .ok
            ∧ source.unread (readPackets source limit bufs s).2
              = frames (ps.drop bufs.length))
      ∧ (∀ k s bufs,
          k ≤ (frames ps).length
          → source.unread s = (frames ps).take k
          → bufs.length = (wholeWithin ps k).length
          → (readPackets source limit bufs s).1 = (wholeWithin ps k).map .ok
            ∧ ∀ buf,
                (IsBoundary ps k
                  → (readPacket source buf limit (readPackets source limit bufs s).2).packet
                    = .error (.stream .eof))
                ∧ (¬ IsBoundary ps k
                  → (readPacket source buf limit (readPackets source limit bufs s).2).packet
                    = .error (.stream .unexpectedEof)))
      ∧ (∀ (srv : Server) k (f : Fed) trace later,
          limit = srv.packetLimit
          → k ≤ (frames ps).length
          → f.session.phase = .serving
          → f.outcome = none
          → f.input.stream.Lively
          → f.input.unread = (frames ps).take k
          → Fed.Run srv f trace later
          → (∃ more last, Fed.Run srv later more last ∧ last.session.phase = .returned)
            ∧ (later.session.phase = .returned
              → receivedOf trace = (wholeWithin ps k).map (fun p => (p.typ, p.payload))
                ∧ ∃ result,
                    later.outcome = some result ∧ (result = none ↔ IsBoundary ps k))) := by
  refine ⟨fun p member => writePacket_frame (fits p member).1, ?_, ?_, ?_⟩
  · intro s bufs unread few
    rw [← List.append_nil (frames ps)] at unread
    obtain ⟨read, left⟩ := readPackets_whole fits bufs few unread
    rw [List.append_nil] at left
    exact ⟨read, left⟩
  · intro k s bufs within unread each
    obtain ⟨rest, split, boundary, shape⟩ := take_frames ps within
    rw [split] at unread
    have wholeFits : ∀ p ∈ wholeWithin ps k, p.Fits limit :=
      fun p member => fits p (mem_of_mem_wholeWithin member)
    obtain ⟨read, left⟩ := readPackets_whole wholeFits bufs (le_of_eq each) unread
    rw [each, List.drop_length, frames_nil, List.nil_append] at left
    rw [each, List.take_length] at read
    refine ⟨read, fun buf => ?_⟩
    have cutFits := shape_fits shape fits
    rw [← left] at cutFits
    have next := readPacket_rest cutFits buf
    rw [left] at next
    exact ⟨fun clean => by rwa [if_pos (boundary.mpr clean)] at next,
      fun cut => by rwa [if_neg (cut ∘ boundary.mp)] at next⟩
  · intro srv k f trace later same within serving pending lively unread run
    subst same
    obtain ⟨rest, split, boundary, shape⟩ := take_frames ps within
    rw [split] at unread
    have wholeFits : ∀ p ∈ wholeWithin ps k, p.Fits srv.packetLimit :=
      fun p member => fits p (mem_of_mem_wholeWithin member)
    have start : Fed.Follows (wholeWithin ps k) rest f [] := by
      refine ⟨lively, fun _ => ⟨by rw [serving]; rfl, [], _, rfl, rfl, unread⟩, ?_⟩
      intro result ended
      rw [pending] at ended
      cases ended
    have cutFits := shape_fits shape fits
    have follows := run.follows cutFits wholeFits start
    have negotiated := run.negotiated (by rw [serving]; nofun)
    refine ⟨follows.returns cutFits wholeFits negotiated, fun returned => ?_⟩
    cases outcome : later.outcome with
    | none =>
        have loops := (follows.reading outcome).1
        rw [returned] at loops
        cases loops
    | some result =>
        obtain ⟨_, received, clean⟩ := follows.finished result outcome
        exact ⟨received, result, rfl, clean.trans boundary⟩

/-- Two packets in pieces of three and more bytes; cut inside the second, a session takes the
first and returns an error.
-/
theorem packets_framed_two
    : let asks (id : UInt8) : Packet := ⟨fxpRealpath, [0, 0, 0, id, 0, 0, 0, 0]⟩
      let ps := [asks 1, asks 2]
      let srv : Server := ⟨false, false, false, false, false, 0, 0⟩
      let pieces (k : Nat) : Stream :=
        ⟨[((frames ps).take k).take 3, [], ((frames ps).take k).drop 3], false⟩
      let f : Fed := {
        session := { phase := .serving }
        input := ⟨4096, by decide, [], none, pieces 20, nofun⟩
      }
      (readPackets Stream.source srv.packetLimit [[], [7]] (pieces 26)).1 = ps.map .ok
      ∧ (readPacket Stream.source [] srv.packetLimit
          (readPackets Stream.source srv.packetLimit [[]] (pieces 20)).2).packet
        = .error (.stream .unexpectedEof)
      ∧ ∃ trace last,
          Fed.Run srv f trace last
          ∧ last.session.phase = .returned
          ∧ receivedOf trace = [(fxpRealpath, [0, 0, 0, 1, 0, 0, 0, 0])]
          ∧ ∃ err, last.outcome = some (some err) := by
  intro asks ps srv pieces f
  have fits : ∀ p ∈ ps, p.Fits srv.packetLimit := by
    intro p member
    have small : p.payload.length = 8 := by
      rcases List.mem_pair.mp member with rfl | rfl
      · rfl
      · rfl
    exact ⟨by rw [small]; decide, by rw [small]; decide⟩
  have unread : ∀ k, (pieces k).unread = (frames ps).take k := by
    intro k
    simp [pieces, Stream.unread]
  have inside : ¬ IsBoundary ps 20 := by
    simp only [ps, isBoundary_cons_iff, asks, Packet.length_frame]
    simp [IsBoundary]
  have lively : (pieces 20).Lively := by
    intro rest suffix
    have few : rest.length ≤ 3 := suffix.length_le
    have idle := (List.takeWhile_sublist (l := rest) List.isEmpty).length_le
    simp only [Stream.idle, Stream.maxEmptyReads]
    omega
  obtain ⟨_, whole, cut, session⟩ := packets_framed Stream.source srv.packetLimit ps fits
  have first := (whole (pieces 26) [[], [7]] (unread 26) (by decide)).1
  have second := (cut 20 (pieces 20) [[]] (by decide) (unread 20) (by decide)).2 []
  obtain ⟨⟨trace, last, run, finished⟩, _⟩ :=
    session srv 20 f [] f rfl (by decide) rfl rfl lively (unread 20) (.refl f)
  obtain ⟨received, result, outcome, clean⟩ :=
    (session srv 20 f trace last rfl (by decide) rfl rfl lively (unread 20) run).2 finished
  refine ⟨first, second.2 inside, trace, last, run, finished, received, ?_⟩
  cases result with
  | none => exact absurd (clean.mp rfl) inside
  | some err => exact ⟨err, outcome⟩

end SftpServer.Sftp
