import SftpServer.Correctness.CriticalSections
import SftpServer.Correctness.DirectoryPages
import SftpServer.Correctness.Requests

/-! What was written in place is synced, or the client is told. While a session works, a file
that was written and not synced since is the file of a handle that is still open; the CLOSE
that ends the handle syncs it, with no WRITE beside it, and answers with the error if that
fails.
-/

namespace SftpServer.Sftp

open SftpServer.Foundations
open SftpServer.Wire

/-- The open file that an effect may change. -/
def Effect.dirties : Effect → Option File
  | .driver (.fileWriteAt file _ _) | .driver (.fileTruncate file _)
  | .driver (.copyRange file _ _ _ _) => some file
  | _ => none

/-- The open file that was synced. -/
def syncedBy : Event → Option File
  | ⟨.driver (.fileSync file), none⟩ => some file
  | _ => none

/-- The file was written, or may have been, and was not synced since. -/
def Unsynced (file : File) (past : List Event) : Prop :=
  ∃ before write after,
    past = before ++ write :: after
    ∧ write.question.dirties = some file
    ∧ ∀ event ∈ after, syncedBy event ≠ some file

/-- The file is written through a handle of the table. -/
def Handles.Writes (t : Handles) (file : File) : Prop :=
  ∃ tok h, t.get tok = some h ∧ h.writable = some file

/-- A handle that the file was written through was closed: the CLOSE was answered with the error
of the sync it made, and the file has not been written since its packet.
-/
def Reported (srv : Server) (file : File) (trace : List Observation) : Prop :=
  ∃ early s m h payload during err late,
    trace = early ++ .received fxpClose payload
      :: (during ++ .replied fxpClose payload (statusErr m.id (some err) statusFailure) :: late)
    ∧ Session.Run srv Session.initial early s
    ∧ decodeHandle fxpClose payload = .ok m
    ∧ s.handles.get m.handle = some h ∧ h.writable = some file
    ∧ ⟨.driver (.fileSync file), some err⟩ ∈ effects during
    ∧ ∀ event ∈ effects (during ++ late), event.question.dirties ≠ some file

-----------------------------------------------------------------------------------------
-- Histories
-----------------------------------------------------------------------------------------

section Histories

variable {file : File} {early late : List Event}

/-- What is unsynced was so before, or was written since. -/
theorem Unsynced.split (unsynced : Unsynced file (early ++ late))
    : Unsynced file early ∧ (∀ event ∈ late, syncedBy event ≠ some file)
      ∨ ∃ write ∈ late, write.question.dirties = some file := by
  obtain ⟨before, write, after, whole, dirties, kept⟩ := unsynced
  rcases List.append_eq_append_iff.mp whole with ⟨rest, rfl, rfl⟩ | ⟨rest, rfl, tail⟩
  · exact .inr ⟨write, by simp, dirties⟩
  cases rest with
  | nil =>
      simp only [List.nil_append] at tail
      exact .inr ⟨write, by simp [← tail], dirties⟩
  | cons first rest =>
      obtain ⟨rfl, rfl⟩ := List.cons.inj tail
      exact .inl ⟨⟨before, write, rest, rfl, dirties,
        fun event member => kept event (List.mem_append_left _ member)⟩,
        fun event member => kept event (List.mem_append_right _ member)⟩

/-- It stays reported until it is written again. -/
theorem Reported.append {srv : Server} {trace more : List Observation}
    (reported : Reported srv file trace)
    (unwritten : ∀ event ∈ effects more, event.question.dirties ≠ some file)
    : Reported srv file (trace ++ more) := by
  obtain ⟨early, s, m, h, payload, during, err, late, rfl, run, decodes, found, writes, failed,
    clean⟩ := reported
  refine ⟨early, s, m, h, payload, during, err, late ++ more, by simp, run, decodes, found,
    writes, failed, ?_⟩
  intro event member
  rw [← List.append_assoc, effects_append] at member
  exact (List.mem_append.mp member).elim (clean event) (unwritten event)

end Histories

-----------------------------------------------------------------------------------------
-- Requests
-----------------------------------------------------------------------------------------

section Requests

variable {srv : Server} {t later : Handles} {typ : UInt8} {payload tok : Bytes} {reply : Message}
  {calls : List Event} {file : File}

/-- An effect that changes no open file but those written through a handle. -/
def WritesWithin (t : Handles) (effect : Effect) : Prop :=
  ∀ file, effect.dirties = some file → t.Writes file

/-- An effect that changes no open file. -/
def Clean (effect : Effect) : Prop := effect.dirties = none

theorem Clean.within {effect : Effect} (clean : Clean effect) : WritesWithin t effect := by
  intro file dirties
  cases clean.symm.trans dirties

theorem sharedCalls_clean : SharedCalls Clean where
  stat _ := rfl
  listDir _ := rfl
  readLink _ := rfl
  randRead := rfl

theorem exclusiveCalls_clean : ExclusiveCalls Clean where
  unplaced call plain := by cases call <;> first | rfl | cases plain
  truncate _ _ _ := rfl
  randRead := rfl

theorem OneSection.clean {α : Type} {program : Prog α} (one : OneSection Clean Clean program)
    : program.Asks Clean fun _ => True := by
  cases one with
  | reply => trivial
  | shared asks => exact asks_withLock (fun _ => rfl) asks
  | exclusive asks => exact asks_withLock (fun _ => rfl) asks

theorem copyLocked_within (id : UInt32) (src dst : File) (m : CopyRequest) (writes : t.Writes dst)
    : (copyLocked id src dst m).Asks (WritesWithin t) fun _ => True := by
  have target {call : DriverCall} (dirties : Effect.dirties (.driver call) = some dst)
      : WritesWithin t (.driver call) := by
    intro file same
    cases dirties.symm.trans same
    exact writes
  unfold copyLocked
  refine .call (Clean.within rfl) fun size => .call (Clean.within rfl) fun grown => ?_
  have grows (size stop : Int64) : (growTo dst size stop).Asks (WritesWithin t) fun _ => True := by
    unfold growTo
    split
    · exact ⟨target rfl, fun _ => trivial⟩
    · trivial
  refine (grows _ _).seq fun answer => ?_
  rcases answer with _ | err
  · exact statusOf_calls ⟨target rfl, fun _ => trivial⟩
  · trivial

/-- A request that runs alone changes no open file but through a handle: by a copy. -/
theorem dispatch_within
    : (dispatch srv t typ payload).Asks (WritesWithin t) fun _ => True := by
  rcases dispatch_section sharedCalls_clean exclusiveCalls_clean srv t typ payload
    with one | ⟨m, extended⟩
  · exact one.clean.mono (fun _ => Clean.within) fun _ _ => trivial
  rw [extended, keeping]
  refine Interaction.Asks.seq ?_ fun _ => trivial
  unfold opExtended
  split
  · trivial
  split
  · have outcome := copyData_outcome srv t m.id m.data
    generalize copyData srv t m.id m.data = program at outcome
    cases outcome with
    | refused => trivial
    | served _ served =>
        exact asks_withLock (fun _ => Clean.within rfl)
          (copyLocked_within _ _ _ _ ⟨_, _, served.target, served.writes⟩)
  · trivial

/-- A READ or WRITE changes no open file but that of its handle. -/
theorem job_within {job : Job} (prepared : prepare srv t typ payload = (some job, none))
    : job.run.Asks (WritesWithin t) fun _ => True := by
  have preparation := prepare_preparation srv t typ payload
  rw [prepared] at preparation
  have lock (op : LockOp) : WritesWithin t (.lock op) := Clean.within rfl
  cases preparation with
  | readsAt =>
      exact asks_withLock lock (readAt_calls _ fun _ => Clean.within rfl)
  | readsWhole =>
      exact asks_withLock lock (readWhole_calls _ _ _ (Clean.within rfl))
  | writesAt decodes accepted opened =>
      refine asks_withLock lock (statusOf_calls ⟨fun file same => ?_, fun _ => trivial⟩)
      cases same
      exact ⟨_, _, accepted.found, opened⟩
  | rewrites =>
      have clean := writeSplice_calls exclusiveCalls_clean
      exact asks_withLock lock ((clean _ _ _ _).mono (fun _ => Clean.within) fun _ _ => trivial)

/-- CLOSE of a handle that files are written through: synced and closed, or the error. -/
theorem opClose_settles {m : HandleRequest} {h : OpenFile} (found : t.get m.handle = some h)
    (writes : h.writable = some file) (runs : (opClose t m).Runs calls (reply, later))
    : (∃ event ∈ calls, syncedBy event = some file)
      ∨ ∃ err, ⟨.driver (.fileSync file), some err⟩ ∈ calls
        ∧ reply = statusErr m.id (some err) statusFailure := by
  have removed : t.remove m.handle = some (h, t.erase m.handle) := by
    rw [Handles.remove, show t.lookup m.handle = some h from found]
  rw [opClose, removed] at runs
  obtain ⟨inner, rfl, inside⟩ := runs_withLock runs
  obtain ⟨first, rest, syncErr, rfl, syncs, closes⟩ := inside.bind_split
  rw [OpenFile.syncFile, writes] at syncs
  obtain ⟨answer, _, rfl, ended⟩ := Interaction.runs_ask_iff.mp syncs
  obtain ⟨rfl, rfl⟩ := Interaction.runs_ret_iff.mp ended
  cases syncErr with
  | none => exact .inl ⟨⟨.driver (.fileSync file), none⟩, by simp, rfl⟩
  | some err =>
      obtain ⟨_, _, closeErr, rfl, _, answers⟩ := closes.bind_split
      obtain ⟨_, same⟩ := Interaction.runs_ret_iff.mp answers
      exact .inr ⟨err, by simp, congrArg Prod.fst same⟩

/-- A handle that files are written through stays, as long as its token is not drawn again, or
is ended by a CLOSE that settles the file.
-/
theorem answer_settles {h : OpenFile} (wellFormed : t.WellFormed srv)
    (found : t.get tok = some h) (writes : h.writable = some file) (fresh : tok ∉ tokensOf calls)
    (runs : (answer srv t typ payload).Runs calls (reply, later))
    : later.get tok = some h
      ∨ ∃ m, typ = fxpClose ∧ decodeHandle fxpClose payload = .ok m
        ∧ (opClose t m).Runs calls (reply, later) ∧ m.handle = tok := by
  by_cases turns : Turns tok typ payload
  · obtain ⟨m, rfl, ⟨rfl, decodes⟩ | ⟨rfl, decodes⟩⟩ := turns
    · -- A directory is not written through its handle.
      have file : h.dir = false := by
        by_contra dir
        have noFile := ((wellFormed.get found).directory (by simpa using dir)).2.1
        cases writes.symm.trans noFile
      rw [answer_readdir, decodes] at runs
      simp only [decoded, opReaddir, found, file, Bool.not_false, if_true] at runs
      cases (Interaction.runs_ret_iff.mp runs).2
      exact .inl found
    · rw [answer_close, decodes] at runs
      exact .inr ⟨m, rfl, decodes, runs, rfl⟩
  · have kept := Monitor.given_runs (answer_keepsEntry turns) runs (draws_other fresh)
    exact .inl (kept.2.trans found)

/-- A token of the table is one it had, or was drawn. -/
theorem answer_tokens {h : OpenFile} (found : later.get tok = some h)
    (runs : (answer srv t typ payload).Runs calls (reply, later))
    : (∃ old, t.get tok = some old) ∨ tok ∈ tokensOf calls := by
  by_cases drawn : tok ∈ tokensOf calls
  · exact .inr drawn
  refine .inl ?_
  by_cases turns : Turns tok typ payload
  · cases known : t.get tok with
    | some old => exact ⟨old, rfl⟩
    | none =>
        -- An unknown handle is refused, and nothing is stored.
        obtain ⟨m, rfl, ⟨rfl, decodes⟩ | ⟨rfl, decodes⟩⟩ := turns
        · rw [answer_readdir, decodes] at runs
          simp only [decoded, opReaddir, known] at runs
          cases (Interaction.runs_ret_iff.mp runs).2
          cases known.symm.trans found
        · have unknown : t.lookup m.handle = none := known
          rw [answer_close, decodes] at runs
          simp only [decoded, opClose, Handles.remove, unknown] at runs
          cases (Interaction.runs_ret_iff.mp runs).2
          cases known.symm.trans found
  · have kept := Monitor.given_runs (answer_keepsEntry turns) runs (draws_other drawn)
    exact ⟨h, kept.2.symm.trans found⟩

end Requests

-----------------------------------------------------------------------------------------
-- Sessions
-----------------------------------------------------------------------------------------

/-- The session closes the files of its handles, or has closed them. -/
def Phase.ends : Phase → Bool
  | .closing _ | .returned => true
  | _ => false

/-- What is unsynced is held or reported. -/
def Session.Durable (srv : Server) (trace : List Observation) (s : Session) : Prop :=
  s.phase.ends = false → ∀ file, Unsynced file (effects trace)
    → s.handles.Writes file ∨ Reported srv file trace

section Sessions

variable {srv : Server} {s later : Session} {early late : List Observation}

/-- Every token of the table was drawn, by induction on the steps. -/
theorem Session.Run.tokens_drawn (run : Session.Run srv Session.initial early s) {tok : Bytes}
    {h : OpenFile} (found : s.handles.get tok = some h)
    : tok ∈ tokensOf (effects early) := by
  induction run generalizing h with
  | refl => cases found
  | @step middle last past new before step ih =>
      rw [effects_append, tokensOf, List.filterMap_append]
      refine List.mem_append_left _ ?_
      cases step with
      | @answered typ payload reply handles phase =>
          obtain ⟨front, during, opening, rfl, _, _, leaves⟩ := before.running_alone phase
          have runs : (answer srv middle.handles typ payload).Runs (effects during)
              (reply, handles) := by
            rw [answer, (before.working.alone typ payload _ phase).1]
            exact leaves.returned
          rcases answer_tokens found runs with ⟨h', found⟩ | drawn
          · exact ih found
          · have own : effects during ⊆ effects (front ++ .received typ payload :: during) := by
              simp [effects]
            obtain ⟨event, member, draws⟩ := List.mem_filterMap.mp drawn
            exact List.mem_filterMap.mpr ⟨event, own member, draws⟩
      | returned => cases found
      | negotiated | refused | started | early | dispatched | advanced | flew | landed | hungUp
      | drained | closed => exact ih found

/-- Where the table stays and nothing is done. -/
theorem Session.Durable.idle (durable : s.Durable srv early) (same : later.handles = s.handles)
    (silent : effects late = []) (works : later.phase.ends = false → s.phase.ends = false)
    : later.Durable srv (early ++ late) := by
  intro working file
  rw [effects_append, silent, List.append_nil, same]
  intro unsynced
  refine (durable (works working) file unsynced).imp id fun reported => ?_
  exact reported.append (by simp [silent])

/-- What an effect that changes no open file but through a handle leaves unsynced. -/
theorem Session.Durable.holds (durable : s.Durable srv early) (works : s.phase.ends = false)
    {event : Event} (within : WritesWithin s.handles event.question) {file : File}
    (unsynced : Unsynced file (effects (early ++ [.event event])))
    : s.handles.Writes file ∨ Reported srv file (early ++ [.event event]) := by
  by_cases dirties : event.question.dirties = some file
  · exact .inl (within file dirties)
  have clean : ∀ other ∈ effects [.event event], other.question.dirties ≠ some file := by
    intro other member
    rwa [List.mem_singleton.mp member]
  rw [effects_append] at unsynced
  rcases unsynced.split with ⟨before, _⟩ | ⟨write, member, wrote⟩
  · exact (durable works file before).imp id fun reported => reported.append clean
  · exact absurd wrote (clean write member)

/-- The reply to a request that ran alone. -/
theorem Session.Durable.answered (durable : s.Durable srv early)
    (run : Session.Run srv Session.initial early s) (tokens : (tokensOf (effects early)).Nodup)
    {typ : UInt8} {payload : Bytes} {reply : Message} {handles : Handles}
    (phase : s.phase = .answering typ payload (.ret (reply, handles)))
    : Session.Durable srv (early ++ [.replied typ payload reply])
        { s with phase := .serving, handles } := by
  have prepared := (run.working.alone typ payload _ phase).1
  have wellFormed := run.wellFormed
  obtain ⟨before, during, opening, rfl, opened, table, leaves⟩ := run.running_alone phase
  have runs : (answer srv s.handles typ payload).Runs (effects during) (reply, handles) := by
    rw [answer, prepared]
    exact leaves.returned
  have whole : effects (before ++ .received typ payload :: during)
      = effects before ++ effects during := by
    simp [effects]
  have apart : (tokensOf (effects before) ++ tokensOf (effects during)).Nodup := by
    rw [whole, tokensOf, List.filterMap_append] at tokens
    exact tokens
  intro _ file unsynced
  rw [effects_append, show effects [.replied typ payload reply] = [] from rfl,
    List.append_nil] at unsynced
  rcases durable (by rw [phase]; rfl) file unsynced with ⟨tok, h, found, writes⟩ | reported
  · have fresh : tok ∉ tokensOf (effects during) :=
      List.disjoint_of_nodup_append apart (opened.tokens_drawn (table ▸ found))
    rcases answer_settles wellFormed found writes fresh runs
      with kept | ⟨m, rfl, decodes, closes, rfl⟩
    · exact .inl ⟨tok, h, kept, writes⟩
    -- The CLOSE of the handle writes nothing itself, so that its sync counts.
    have clean : ∀ event ∈ effects during, Clean event.question :=
      ((opClose_section exclusiveCalls_clean m).clean.of_runs closes).1
    have unwritten (event : Event) (member : event ∈ effects during)
        : event.question.dirties ≠ some file := by
      rw [clean event member]
      simp
    rcases opClose_settles found writes closes with ⟨event, member, synced⟩ | ⟨err, failed, told⟩
    · rw [whole] at unsynced
      rcases unsynced.split with ⟨_, never⟩ | ⟨write, wrote, dirties⟩
      · exact absurd synced (never event member)
      · exact absurd dirties (unwritten write wrote)
    · refine .inr ⟨before, opening, m, h, payload, during, err, [], by simp [told], opened,
        decodes, table ▸ found, writes, failed, ?_⟩
      rwa [List.append_nil]
  · exact .inr (reported.append (by simp [effects]))

theorem Session.Step.durable (step : Session.Step srv s late later)
    (run : Session.Run srv Session.initial early s) (tokens : (tokensOf (effects early)).Nodup)
    (durable : s.Durable srv early)
    : later.Durable srv (early ++ late) := by
  have safe := (run.safe (fun _ _ => trivial) (receives_any srv _)).1
  -- While a READ or WRITE is in flight, the handles are not being closed.
  have flying {before after : List Flight} {flight : Flight}
      (inFlight : s.flights = before ++ flight :: after)
      : s.phase.ends = false := by
    rcases safe.phase.idle (by simp [inFlight]) with phase | phase | phase <;>
      simp [phase, Phase.ends]
  cases step with
  | negotiated phase accepted => exact durable.idle rfl rfl fun _ => by rw [phase]; rfl
  | refused phase => exact durable.idle rfl rfl fun _ => by rw [phase]; rfl
  | started phase prepared => exact durable.idle rfl rfl fun _ => by rw [phase]; rfl
  | early phase alone prepared => exact durable.idle rfl rfl fun _ => by rw [phase]; rfl
  | dispatched phase alone prepared => exact durable.idle rfl rfl fun _ => by rw [phase]; rfl
  | @advanced typ payload effect next answer phase =>
      obtain ⟨_, _, _, leaves⟩ := run.working.alone typ payload _ phase
      intro _ file unsynced
      exact durable.holds (by rw [phase]; rfl) (leaves.asks dispatch_within).1 unsynced
  | answered phase => exact durable.answered run tokens phase
  | @flew before after flight effect next answer inFlight asks =>
      obtain ⟨job, prepared, calls, _, leaves⟩ := run.working.flights flight (by simp [inFlight])
      have within := leaves.asks (job_within prepared)
      rw [asks] at within
      exact fun _ file unsynced => durable.holds (flying inFlight) within.1 unsynced
  | landed inFlight returns => exact durable.idle rfl rfl fun _ => flying inFlight
  | hungUp phase => exact durable.idle rfl rfl fun _ => by rw [phase]; rfl
  | drained | closed | returned => exact nofun

/-- In every state of a session whose tokens are all different, by induction on its steps. -/
theorem Session.Run.durable (run : Session.Run srv Session.initial early s)
    (tokens : (tokensOf (effects early)).Nodup)
    : s.Durable srv early := by
  induction run with
  | refl =>
      intro _ file unsynced
      obtain ⟨before, write, after, whole, _⟩ := unsynced
      cases before <;> cases whole
  | step before step ih =>
      rw [effects_append, tokensOf, List.filterMap_append] at tokens
      have earlier := (List.nodup_append.mp tokens).1
      exact step.durable before earlier (ih earlier)

/-- While a session works, what was written in place and not synced since is held by a handle
that is still open, or a handle it was written through was closed after the last write and the
CLOSE was answered with the error of syncing it: for tokens that are all different.
-/
theorem writes_synced_or_reported (run : Session.Run srv Session.initial early s)
    (tokens : (tokensOf (effects early)).Nodup) (works : s.phase.ends = false) {file : File}
    (unsynced : Unsynced file (effects early))
    : s.handles.Writes file ∨ Reported srv file early :=
  run.durable tokens works file unsynced

end Sessions

/-- A driver whose files can be written, and not synced. -/
def failingSync (_ : Unit) : (effect : Effect) → effect.Answer × Unit
  | .driver (.openFile _) => (.ok (some { id := 0, isWritable := true }), ())
  | .driver (.fileSync _) => (some { message := text "I/O error" }, ())
  | _ => (default, ())

/-- A client that writes a byte and closes the handle. -/
theorem Session.Run.writingOnce
    : ∃ trace,
        Session.Run { plainServer with opener := true } Session.initial trace
          { Session.initial with phase := .serving }
        ∧ (tokensOf (effects trace)).length = 1
        ∧ Unsynced { id := 0, isWritable := true } (effects trace) := by
  have opened := (Session.Run.negotiating { plainServer with opener := true }).trans
    (.dispatching fxpOpen [0, 0, 0, 1, 0, 0, 0, 2, 0x2f, 0x61, 0, 0, 0, 2, 0, 0, 0, 0] rfl rfl rfl
      (Interaction.interpret_runs failingSync () _))
  have started := opened.trans (.starting fxpWrite
    ([0, 0, 0, 2, 0, 0, 0, 32] ++ zeroToken ++ [0, 0, 0, 0, 0, 0, 0, 0, 0, 0, 0, 1, 7]) rfl rfl)
  have locked := started.step (@Session.Step.flew _ _ [] [] _ _ _ () rfl rfl)
  have wrote := locked.step (@Session.Step.flew _ _ [] [] _ _ _ default rfl rfl)
  have unlocked := wrote.step (@Session.Step.flew _ _ [] [] _ _ _ () rfl rfl)
  have landed := unlocked.step (@Session.Step.landed _ _ [] [] _ _ rfl rfl)
  have closed := landed.trans (.dispatching fxpClose ([0, 0, 0, 3, 0, 0, 0, 32] ++ zeroToken)
    rfl rfl rfl (Interaction.interpret_runs failingSync () _))
  refine ⟨_, closed, rfl, [_, _, _, _, _, _], _, [_, _, _, _, _], rfl, rfl, ?_⟩
  simp [syncedBy]

theorem writes_synced_or_reported_failing
    : ∃ trace,
        Session.Run { plainServer with opener := true } Session.initial trace
          { Session.initial with phase := .serving }
        ∧ Reported { plainServer with opener := true } { id := 0, isWritable := true } trace := by
  obtain ⟨trace, run, tokens, unsynced⟩ := Session.Run.writingOnce
  obtain ⟨tok, token⟩ := List.length_eq_one_iff.mp tokens
  refine ⟨trace, run, ?_⟩
  rcases writes_synced_or_reported run (by simp [token]) rfl unsynced
    with ⟨_, _, found, _⟩ | reported
  · cases found
  · exact reported

end SftpServer.Sftp
