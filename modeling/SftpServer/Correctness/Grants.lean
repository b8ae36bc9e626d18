import SftpServer.Correctness.DirectoryPages
import SftpServer.Correctness.Provenance
import SftpServer.Correctness.Requests

/-! The request that a handle comes from. Every entry of the table was made by one OPEN or
OPENDIR, of what the driver answered between its packet and the reply that granted the token:
the file that was opened for it, or the entries that were listed for it.
-/

namespace SftpServer.Sftp

open SftpServer.Foundations
open SftpServer.Wire

/-- The token that a reply grants. -/
def Observation.grants : Observation → Option Bytes
  | .replied typ _ (.handleReply reply) =>
      if typ = fxpOpen ∨ typ = fxpOpendir then some reply.handle else none
  | _ => none

/-- A request of a session was answered with the token, with these effects between its packet and
its reply, and nothing has granted the token since.
-/
def GrantedIn (trace : List Observation) (tok : Bytes) (typ : UInt8) (payload : Bytes)
    (calls : List Event) : Prop :=
  ∃ early during id late,
    trace = early ++ .received typ payload
      :: (during ++ .replied typ payload (.handleReply ⟨id, tok⟩) :: late)
    ∧ calls = effects during
    ∧ ∀ seen ∈ late, seen.grants ≠ some tok

/-- What a request makes of a handle from its effects: an OPEN a file that was opened for it, and
an OPENDIR the entries of the directory it names.
-/
inductive OpenFile.MadeIn (srv : Server) (calls : List Event) (typ : UInt8) (payload : Bytes)
    (h : OpenFile) : Prop where
  | opened {m : OpenRequest} (kind : typ = fxpOpen) (decodes : decodeOpen payload = .ok m)
    (made : h.MadeBy srv (fileCustody.acquired calls) m)
  | listed {m : PathRequest} (kind : typ = fxpOpendir)
    (decodes : decodePath fxpOpendir payload = .ok m) (isDir : h.dir = true)
    (path : resolve m.id m.path = .ok h.path)
    (listing : ⟨.driver (.listDir h.path), .ok h.entries⟩ ∈ calls)

-----------------------------------------------------------------------------------------
-- Grants of a trace
-----------------------------------------------------------------------------------------

section Traces

variable {trace more : List Observation} {tok : Bytes} {typ : UInt8} {payload : Bytes}
  {calls : List Event}

@[simp] theorem grants_received : (Observation.received typ payload).grants = none :=
  rfl

@[simp] theorem grants_event (event : Event) : (Observation.event event).grants = none :=
  rfl

/-- A reply to a request that asks for no handle, or that is none, grants nothing. -/
theorem grants_replied {reply : Message}
    (noHandle : typ = fxpOpen ∨ typ = fxpOpendir → isHandle reply = false)
    : (Observation.replied typ payload reply).grants = none := by
  cases reply with
  | handleReply reply => exact if_neg fun kind => by cases noHandle kind
  | _ => rfl

/-- Neither does the reply to a READ or a WRITE. -/
theorem grants_prepared {srv : Server} {t : Handles} {outcome : Option Job × Option Message}
    (prepared : prepare srv t typ payload = outcome) (served : outcome ≠ (none, none))
    (reply : Message)
    : (Observation.replied typ payload reply).grants = none := by
  refine grants_replied fun other => ?_
  rcases typ_of_prepare prepared served with rfl | rfl <;> exact absurd other (by decide)

theorem GrantedIn.append (granted : GrantedIn trace tok typ payload calls)
    (others : ∀ seen ∈ more, seen.grants ≠ some tok)
    : GrantedIn (trace ++ more) tok typ payload calls := by
  obtain ⟨early, during, id, late, rfl, same, unseen⟩ := granted
  refine ⟨early, during, id, late ++ more, by simp, same, ?_⟩
  intro seen member
  exact (List.mem_append.mp member).elim (unseen seen) (others seen)

/-- Its effects are among those of the session. -/
theorem GrantedIn.subset (granted : GrantedIn trace tok typ payload calls)
    : calls ⊆ effects trace := by
  obtain ⟨early, during, id, late, rfl, rfl, _⟩ := granted
  intro event member
  simp only [effects, List.filterMap_append, List.filterMap_cons, List.mem_append]
  exact .inr (.inl member)

/-- What grants nothing under the token keeps what it was granted for, by induction on the
observations.
-/
theorem foldl_grantStep_of_others {granted : Bytes → Option OpenRequest}
    (others : ∀ seen ∈ more, seen.grants ≠ some tok)
    : more.foldl grantStep granted tok = granted tok := by
  induction more generalizing granted with
  | nil => rfl
  | cons seen more ih =>
      rw [List.foldl_cons, ih fun other member => others other (List.mem_cons_of_mem _ member)]
      have apart := others seen List.mem_cons_self
      cases seen with
      | received | event => rfl
      | replied typ payload reply =>
          cases reply with
          | handleReply reply =>
              simp only [grantStep, Observation.grants] at apart ⊢
              split
              · rename_i opens
                simp only [opens, true_or, if_true, ne_eq, Option.some.injEq] at apart
                exact Function.update_of_ne (Ne.symm apart) ..
              · split
                · rename_i opens
                  simp only [opens, or_true, if_true, ne_eq, Option.some.injEq] at apart
                  exact Function.update_of_ne (Ne.symm apart) ..
                · rfl
          | _ => rfl

/-- An OPEN that has granted a token is the one that was last answered with it. -/
theorem GrantedIn.grantedBy_eq (granted : GrantedIn trace tok fxpOpen payload calls)
    {m : OpenRequest} (decodes : decodeOpen payload = .ok m)
    : grantedBy trace tok = some m := by
  obtain ⟨early, during, id, late, rfl, _, unseen⟩ := granted
  rw [grantedBy_append, List.foldl_cons, List.foldl_append, List.foldl_cons,
    foldl_grantStep_of_others unseen]
  simp [grantStep, decodes, Except.toOption]

end Traces

-----------------------------------------------------------------------------------------
-- Requests
-----------------------------------------------------------------------------------------

section Requests

variable {srv : Server} {t later : Handles} {typ : UInt8} {payload : Bytes} {reply : Message}
  {calls : List Event} {tok : Bytes} {h : OpenFile}

/-- To read on in a directory does not change what was listed. -/
theorem OpenFile.MadeIn.continues {old : OpenFile} (made : old.MadeIn srv calls typ payload)
    (same : old.Continues h)
    : h.MadeIn srv calls typ payload := by
  rcases same with rfl | ⟨directory, moved⟩
  · exact made
  rw [moved]
  cases made with
  | opened kind decodes made => exact .opened kind decodes ⟨made.1, made.2, made.3, made.4, made.5⟩
  | listed kind decodes isDir path listing => exact .listed kind decodes isDir path listing

/-- An entry after a request was there before, and the reply is not its token, or the request has
made it and grants its token.
-/
theorem dispatch_grants (run : (dispatch srv t typ payload).Runs calls (reply, later))
    (found : later.get tok = some h)
    : (∃ old, t.get tok = some old ∧ old.Continues h
        ∧ (Observation.replied typ payload reply).grants ≠ some tok)
      ∨ ∃ id, reply = .handleReply ⟨id, tok⟩ ∧ h.MadeIn srv calls typ payload := by
  have kept {old : OpenFile} (before : t.get tok = some old) (same : old.Continues h)
      (noHandle : typ = fxpOpen ∨ typ = fxpOpendir → isHandle reply = false)
      : ∃ old, t.get tok = some old ∧ old.Continues h
        ∧ (Observation.replied typ payload reply).grants ≠ some tok :=
    ⟨old, before, same, by simp [grants_replied noHandle]⟩
  -- Where the request adds an entry, the others keep theirs.
  have added {id : UInt32} {new : Bytes} {h' : OpenFile}
      (granted : reply = .handleReply ⟨id, new⟩) (inserted : later = AList.insert new h' t)
      (made : h'.MadeIn srv calls typ payload)
      : (∃ old, t.get tok = some old ∧ old.Continues h
          ∧ (Observation.replied typ payload reply).grants ≠ some tok)
        ∨ ∃ id, reply = .handleReply ⟨id, tok⟩ ∧ h.MadeIn srv calls typ payload := by
    rw [inserted] at found
    rcases Handles.get_insert_cases found with ⟨rfl, rfl⟩ | ⟨apart, before⟩
    · exact .inr ⟨id, granted, made⟩
    · refine .inl ⟨h, before, .inl rfl, ?_⟩
      rw [granted, Observation.grants]
      split
      · exact fun same => apart (Option.some.inj same).symm
      · simp
  by_cases lists : typ = fxpOpendir
  · subst lists
    have dispatched : dispatch srv t fxpOpendir payload
        = decoded t (requestID payload) (decodePath fxpOpendir payload) (opOpendir t) := rfl
    rw [dispatched] at run
    cases decodes : decodePath fxpOpendir payload with
    | error err =>
        rw [decodes] at run
        cases (Interaction.runs_ret_iff.mp run).2
        exact .inl (kept found (.inl rfl) fun _ => rfl)
    | ok m =>
        rw [decodes] at run
        rcases opOpendir_lists run with
          ⟨rfl, noHandle⟩ | ⟨new, dir, entries, granted, inserted, resolved, listing, _⟩
        · exact .inl (kept found (.inl rfl) fun _ => noHandle)
        · exact added granted inserted (.listed rfl decodes rfl resolved listing)
  · have outcome := Custody.record_runs (@record_dispatch srv t [] typ payload) run
    rw [List.nil_append] at outcome
    cases outcome with
    | kept noHandle same =>
        obtain ⟨old, before, same⟩ := same tok h found
        exact .inl (kept before same noHandle)
    | granted length made =>
        rcases made with ⟨other, _⟩ | ⟨rfl, m, decodes, made⟩
        · exact absurd other lists
        · exact added rfl rfl (.opened rfl decodes made)

end Requests

-----------------------------------------------------------------------------------------
-- Whole sessions
-----------------------------------------------------------------------------------------

/-- Every entry of the table was made by the request that last granted its token. -/
def Session.Granted (srv : Server) (trace : List Observation) (s : Session) : Prop :=
  ∀ tok h, s.handles.get tok = some h
    → ∃ typ payload calls, GrantedIn trace tok typ payload calls
      ∧ h.MadeIn srv calls typ payload

section Sessions

variable {srv : Server} {trace more : List Observation} {s later : Session}

/-- A step keeps it. The table is replaced when the request that ran alone is answered. -/
theorem Session.Step.granted (step : Session.Step srv s more later)
    (run : Session.Run srv Session.initial trace s) (granted : s.Granted srv trace)
    : later.Granted srv (trace ++ more) := by
  have kept (nothing : ∀ seen ∈ more, seen.grants = none) : s.Granted srv (trace ++ more) := by
    intro tok h found
    obtain ⟨typ, payload, calls, granted, made⟩ := granted tok h found
    exact ⟨typ, payload, calls, granted.append fun seen member => by simp [nothing seen member],
      made⟩
  cases step with
  | negotiated | refused | started | dispatched | advanced | flew | hungUp | drained | closed =>
      exact kept (by simp)
  | returned => exact nofun
  | early phase alone prepared => exact kept (by simp [grants_prepared prepared])
  | @landed before after flight reply inFlight returns =>
      obtain ⟨job, prepared, _⟩ := run.working.flights flight (by simp [inFlight])
      exact kept (by simp [grants_prepared prepared])
  | @answered typ payload reply handles phase =>
      obtain ⟨early, during, opening, rfl, _, _, leaves⟩ := run.running_alone phase
      intro tok h found
      rcases dispatch_grants leaves.returned found with ⟨old, before, same, other⟩ | ⟨id, rfl, made⟩
      · obtain ⟨typ', payload', calls, granted, made⟩ := granted tok old before
        refine ⟨typ', payload', calls, granted.append fun seen member => ?_, made.continues same⟩
        rwa [List.mem_singleton.mp member]
      · exact ⟨typ, payload, _, ⟨early, during, id, [], by simp, rfl, by simp⟩, made⟩

/-- In every state of a session, by induction on the steps. -/
theorem Session.Run.granted (run : Session.Run srv Session.initial trace s)
    : s.Granted srv trace := by
  induction run with
  | refl => exact nofun
  | step before step ih => exact step.granted before ih

end Sessions

end SftpServer.Sftp
