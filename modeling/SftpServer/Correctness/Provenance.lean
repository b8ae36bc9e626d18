import SftpServer.Correctness.FileLifecycle

/-! Where the handles of a session come from. Every entry of the table is a directory or
what the last OPEN that was answered with its token made of it: the path, the open mode and
the driver's file are that request's.
-/

namespace SftpServer.Sftp

open SftpServer.Foundations
open SftpServer.Wire

/-- What an OPEN makes of a handle, where `log` is what `OpenFile` has returned: without a
file, the driver has no `Opener` or opened one that cannot be written in place.
-/
structure OpenFile.MadeBy (srv : Server) (log : List (Bytes × File)) (m : OpenRequest)
    (h : OpenFile) : Prop where
  isFile : h.dir = false
  path : resolve m.id m.path = .ok h.path
  write : h.write = wantsWrite m.pflags
  file : ∀ file, h.file = some file → (h.path, file) ∈ log
  noFile : h.file = none
    → srv.opener = false ∨ ∃ file, (h.path, file) ∈ log ∧ file.isWritable = false

/-- An entry is what it was, except that a directory may have been read on. -/
def OpenFile.Continues (old h : OpenFile) : Prop :=
  h = old ∨ h.dir = true ∧ h = { old with pos := h.pos }

/-- How a request leaves the table: with what was there, apart from directories that were
read on, or with one more entry under the token it is answered with.
-/
inductive Outcome (srv : Server) (log : List (Bytes × File)) (t : Handles) (typ : UInt8)
    (payload : Bytes) : Message × Handles → Prop where
  | kept {reply : Message} {later : Handles}
    (noHandle : typ = fxpOpen ∨ typ = fxpOpendir → isHandle reply = false)
    (same : ∀ tok h, later.get tok = some h → ∃ old, t.get tok = some old ∧ old.Continues h)
    : Outcome srv log t typ payload (reply, later)
  | granted {id : UInt32} {tok : Bytes} {h : OpenFile} (length : tok.length = 2 * handleBytes)
    (made : typ = fxpOpendir ∧ h.dir = true
      ∨ typ = fxpOpen ∧ ∃ m, decodeOpen payload = .ok m ∧ h.MadeBy srv log m)
    : Outcome srv log t typ payload (.handleReply ⟨id, tok⟩, AList.insert tok h t)

/-- A path is refused with a status. -/
theorem isHandle_of_resolve {id : UInt32} {p : Bytes} {bad : Message}
    (refused : resolve id p = .error bad)
    : isHandle bad = false := by
  rw [refusal_of_resolve refused]
  rfl

section Handlers

variable {srv : Server} {t : Handles} {log : List (Bytes × File)} {typ : UInt8}
  {payload : Bytes}

theorem Outcome.unchanged {reply : Message}
    (noHandle : typ = fxpOpen ∨ typ = fxpOpendir → isHandle reply = false)
    : Outcome srv log t typ payload (reply, t) :=
  .kept noHandle fun _ h found => ⟨h, found, .inl rfl⟩

/-- A handler that leaves the table alone. -/
theorem record_keeping (other : ¬ (typ = fxpOpen ∨ typ = fxpOpendir)) (op : Prog Message)
    : fileCustody.record.wp (keeping t op)
        (fun log result => Outcome srv log t typ payload result) log := by
  rw [keeping, Monitor.wp_bind]
  refine Monitor.wp_mono (Custody.wp_record op.asks_true log) fun log reply _ => ?_
  exact .unchanged fun kind => absurd kind other

theorem record_ask {α : Type} {effect : Effect} {rest : effect.Answer → Prog α}
    {post : List (Bytes × File) → α → Prop}
    (later : ∀ answer, fileCustody.record.wp (rest answer) post
      (fileCustody.record.next log effect answer))
    : fileCustody.record.wp (.ask effect .ret >>= rest) post log :=
  ⟨trivial, fun answer _ => later answer⟩

/-- A question that opens no file. -/
theorem record_call {α : Type} {effect : Effect} {rest : effect.Answer → Prog α}
    {post : List (Bytes × File) → α → Prop}
    (brings : ∀ answer, fileCustody.acquires effect answer = none)
    (later : ∀ answer, fileCustody.record.wp (rest answer) post log)
    : fileCustody.record.wp (.ask effect .ret >>= rest) post log := by
  refine record_ask fun answer => ?_
  have same : fileCustody.record.next log effect answer = log := by
    simp only [Custody.record, brings answer, Option.toList_none, List.append_nil]
  rw [same]
  exact later answer

theorem record_withLock {α : Type} {acquire release : LockOp} {body : Prog α}
    {post : List (Bytes × File) → α → Prop} (body_ok : fileCustody.record.wp body post log)
    : fileCustody.record.wp (withLock acquire release body) post log := by
  have releasing : fileCustody.record.wp
      (body >>= fun result => .ask (.lock release) .ret >>= fun _ => .ret result) post log := by
    rw [Monitor.wp_bind]
    refine Monitor.wp_mono body_ok fun log value holds => ?_
    exact record_call (fun _ => rfl) fun _ => holds
  exact @record_call _ _ (.lock acquire) _ _ (fun _ => rfl) fun _ => releasing

theorem record_add {h : OpenFile}
    {post : List (Bytes × File) → Except DriverError (Bytes × Handles) → Prop}
    (failed : ∀ err, post log (.error err))
    (stored : ∀ tok, tok.length = 2 * handleBytes → post log (.ok (tok, AList.insert tok h t)))
    : fileCustody.record.wp (t.add h) post log := by
  refine ⟨trivial, fun drawn _ => ?_⟩
  have same : fileCustody.record.next log .randRead drawn = log := List.append_nil log
  rw [same]
  rcases drawn with err | bytes
  · exact failed err
  · exact stored _ (by rw [length_hexEncode, Vector.length_toList])

/-- An OPENDIR that is granted adds a directory. -/
theorem record_opOpendir (m : PathRequest)
    : fileCustody.record.wp (opOpendir t m)
        (fun log result => Outcome srv log t fxpOpendir payload result) log := by
  have refused (log : List (Bytes × File)) (code : Status) (msg : Bytes)
      : Outcome srv log t fxpOpendir payload (status m.id code msg, t) :=
    .unchanged fun _ => rfl
  unfold opOpendir
  split
  · rename_i bad resolved
    exact .unchanged fun _ => isHandle_of_resolve resolved
  split
  · exact refused _ _ _
  refine record_withLock (record_call (fun _ => rfl) fun answer => ?_)
  rcases answer with err | _ | st
  · exact refused _ _ _
  · exact refused _ _ _
  dsimp only
  split
  · exact refused _ _ _
  refine record_call (fun _ => rfl) fun answer => ?_
  rcases answer with err | entries
  · exact refused _ _ _
  dsimp only
  rw [Monitor.wp_bind]
  refine record_add (fun err => refused _ _ _) fun tok length => ?_
  exact .granted length (.inl ⟨rfl, rfl⟩)

/-- A READDIR moves the position in a directory. -/
theorem record_opReaddir (m : HandleRequest)
    : fileCustody.record.wp (opReaddir srv t m)
        (fun log result => Outcome srv log t fxpReaddir payload result) log := by
  have noHandle {reply : Message}
      : fxpReaddir = fxpOpen ∨ fxpReaddir = fxpOpendir → isHandle reply = false :=
    fun kind => absurd kind (by decide)
  unfold opReaddir
  split
  · exact .unchanged noHandle
  rename_i h found
  split
  · exact .unchanged noHandle
  rename_i directory
  refine record_withLock ?_
  rw [Monitor.wp_bind]
  refine Monitor.wp_mono (Custody.wp_record (Interaction.asks_true _) log) fun log result _ => ?_
  have later : ∀ tok h', Handles.get (AList.insert m.handle { h with pos := result.2 } t) tok
        = some h'
      → ∃ old, t.get tok = some old ∧ old.Continues h' := by
    intro tok h' now
    rcases Handles.get_insert_cases now with ⟨rfl, rfl⟩ | ⟨_, before⟩
    · exact ⟨h, found, .inr ⟨by simpa using directory, rfl⟩⟩
    · exact ⟨h', before, .inl rfl⟩
  dsimp only
  split
  · exact .kept noHandle later
  · exact .kept noHandle later

/-- A CLOSE takes one entry out. -/
theorem record_opClose (m : HandleRequest)
    : fileCustody.record.wp (opClose t m)
        (fun log result => Outcome srv log t fxpClose payload result) log := by
  have noHandle {reply : Message}
      : fxpClose = fxpOpen ∨ fxpClose = fxpOpendir → isHandle reply = false :=
    fun kind => absurd kind (by decide)
  unfold opClose
  split
  · exact .unchanged noHandle
  rename_i h later removed
  have fewer : ∀ tok h', later.get tok = some h'
      → ∃ old, t.get tok = some old ∧ old.Continues h' := by
    intro tok h' left
    rw [Handles.eq_erase_of_remove removed] at left
    exact ⟨h', Handles.get_of_get_erase left, .inl rfl⟩
  refine record_withLock ?_
  simp only [Monitor.wp_bind]
  refine Monitor.wp_mono (Custody.wp_record (Interaction.asks_true _) log) fun log _ _ => ?_
  refine Monitor.wp_mono (Custody.wp_record (Interaction.asks_true _) log) fun log _ _ => ?_
  split
  · exact .kept noHandle fewer
  · exact .kept noHandle fewer

section Open

variable {m : OpenRequest} {path : Bytes} (decodes : decodeOpen payload = .ok m)
  (resolved : resolve m.id m.path = .ok path)

include decodes in
theorem record_registerHandle (id : UInt32) {h : OpenFile} (made : h.MadeBy srv log m)
    : fileCustody.record.wp (registerHandle t id h)
        (fun log result => Outcome srv log t fxpOpen payload result) log := by
  rw [registerHandle, Monitor.wp_bind]
  refine record_add (fun err => ?_) fun tok length => ?_
  · rw [Monitor.wp_bind]
    refine Monitor.wp_mono (Custody.wp_record h.closeFile.asks_true log) fun _ _ _ => ?_
    exact .unchanged fun _ => rfl
  · exact .granted length (.inr ⟨rfl, m, decodes, made⟩)

include decodes resolved in
theorem record_finishOpen (id : UInt32) {write : Bool} (mode : write = wantsWrite m.pflags)
    : fileCustody.record.wp (finishOpen srv t id path write)
        (fun log result => Outcome srv log t fxpOpen payload result) log := by
  subst mode
  unfold finishOpen
  split
  · rename_i unable
    have noOpener : srv.opener = false := by simpa using unable
    exact record_registerHandle decodes id ⟨rfl, resolved, rfl, nofun, fun _ => .inl noOpener⟩
  refine record_ask fun answer => ?_
  rcases answer with err | _ | file
  · exact .unchanged fun _ => rfl
  · exact .unchanged fun _ => rfl
  have opened : fileCustody.record.next log (.driver (.openFile path)) (.ok (some file))
      = log ++ [(path, file)] := rfl
  have recorded : (path, file) ∈ log ++ [(path, file)] := by simp
  have made {h : OpenFile} (isFile : h.dir = false) (same : h.path = path)
      (mode : h.write = wantsWrite m.pflags) (holds : h.file = some file)
      : h.MadeBy srv (log ++ [(path, file)]) m := by
    refine ⟨isFile, same ▸ resolved, mode, fun other found => ?_, fun none_left => ?_⟩
    · obtain rfl := Option.some.inj (holds.symm.trans found)
      exact same ▸ recorded
    · rw [holds] at none_left
      cases none_left
  rw [opened]
  dsimp only
  split
  · exact record_registerHandle decodes id (made rfl rfl rfl rfl)
  split
  · exact record_registerHandle decodes id (made rfl rfl rfl rfl)
  -- A snapshot: closed again, and the handle goes without a file.
  rename_i snapshot
  have readOnly : file.isWritable = false := by simpa using snapshot
  refine record_call (fun _ => rfl) fun closed => ?_
  rcases closed with _ | err
  · exact record_registerHandle decodes id
      ⟨rfl, resolved, rfl, nofun, fun _ => .inr ⟨file, recorded, readOnly⟩⟩
  · exact .unchanged fun _ => rfl

include decodes resolved in
theorem record_openStated (st : Option Stat) (statErr : Option DriverError)
    : fileCustody.record.wp (openStated srv t m path st statErr)
        (fun log result => Outcome srv log t fxpOpen payload result) log := by
  unfold openStated
  split
  · exact .unchanged fun _ => rfl
  split
  · rename_i writing
    have mode : true = wantsWrite m.pflags := writing.symm
    unfold openForWrite
    split
    · exact .unchanged fun _ => rfl
    split
    · exact .unchanged fun _ => rfl
    split
    · refine record_call (fun _ => rfl) fun written => ?_
      rcases written with _ | err
      · exact record_finishOpen decodes resolved m.id mode
      · exact .unchanged fun _ => rfl
    · exact record_finishOpen decodes resolved m.id mode
  rename_i reading
  have mode : false = wantsWrite m.pflags := by simpa using reading
  split
  · exact .unchanged fun _ => rfl
  · exact record_finishOpen decodes resolved m.id mode

end Open

theorem record_opOpen {m : OpenRequest} (decodes : decodeOpen payload = .ok m)
    : fileCustody.record.wp (opOpen srv t m)
        (fun log result => Outcome srv log t fxpOpen payload result) log := by
  unfold opOpen
  split
  · rename_i bad refused
    exact .unchanged fun _ => isHandle_of_resolve refused
  rename_i path resolved
  split
  · exact .unchanged fun _ => rfl
  split
  · exact .unchanged fun _ => rfl
  refine record_withLock (record_call (fun _ => rfl) fun answer => ?_)
  rcases answer with err | st
  · exact record_openStated decodes resolved none (some err)
  · exact record_openStated decodes resolved st none

/-- Every request that runs alone leaves the table in one of the two ways. -/
theorem record_dispatch (typ : UInt8) (payload : Bytes)
    : fileCustody.record.wp (dispatch srv t typ payload)
        (fun log result => Outcome srv log t typ payload result) log := by
  have handler := dispatch_handler srv t typ payload
  generalize dispatch srv t typ payload = program at handler
  cases handler with
  | malformed err => exact .unchanged fun _ => rfl
  | opens decodes => exact record_opOpen decodes
  | closes decodes => exact record_opClose _
  | stats kind decodes =>
      refine record_keeping (fun kind' => ?_) _
      rcases kind with rfl | rfl <;> exact absurd kind' (by decide)
  | fstats decodes => exact record_keeping (by decide) _
  | setstats decodes => exact record_keeping (by decide) _
  | fsetstats decodes => exact record_keeping (by decide) _
  | opendirs decodes => exact record_opOpendir _
  | readdirs decodes => exact record_opReaddir _
  | removes kind decodes =>
      refine record_keeping (fun kind' => ?_) _
      rcases kind with rfl | rfl <;> exact absurd kind' (by decide)
  | mkdirs decodes => exact record_keeping (by decide) _
  | realpaths decodes => exact record_keeping (by decide) _
  | renames decodes => exact record_keeping (by decide) _
  | readlinks decodes => exact record_keeping (by decide) _
  | symlinks decodes => exact record_keeping (by decide) _
  | extensions decodes => exact record_keeping (by decide) _
  | unsupported => exact .unchanged fun _ => rfl

end Handlers

-----------------------------------------------------------------------------------------
-- Whole sessions
-----------------------------------------------------------------------------------------

/-- What is granted after one more observation: an OPEN that is answered with a handle, or an
OPENDIR, which makes the token a directory's.
-/
def grantStep (granted : Bytes → Option OpenRequest) : Observation → Bytes → Option OpenRequest
  | .replied typ payload (.handleReply reply) =>
      if typ = fxpOpen then Function.update granted reply.handle (decodeOpen payload).toOption
      else if typ = fxpOpendir then Function.update granted reply.handle none
      else granted
  | _ => granted

/-- The OPEN that was last answered with a token. -/
def grantedBy (trace : List Observation) : Bytes → Option OpenRequest :=
  trace.foldl grantStep fun _ => none

theorem grantedBy_append (early late : List Observation)
    : grantedBy (early ++ late) = late.foldl grantStep (grantedBy early) :=
  List.foldl_append

/-- A reply that is no handle, or to a request that asks for none, grants nothing. -/
theorem grantStep_replied {granted : Bytes → Option OpenRequest} {typ : UInt8}
    {payload : Bytes} {reply : Message}
    (noHandle : typ = fxpOpen ∨ typ = fxpOpendir → isHandle reply = false)
    : grantStep granted (.replied typ payload reply) = granted := by
  cases reply with
  | handleReply reply =>
      have other : ¬ (typ = fxpOpen ∨ typ = fxpOpendir) := fun kind => nomatch noHandle kind
      rw [not_or] at other
      simp only [grantStep, other.1, other.2, if_false]
  | _ => rfl

/-- Only a READ or a WRITE is prepared. -/
theorem typ_of_prepare {srv : Server} {t : Handles} {typ : UInt8} {payload : Bytes}
    {outcome : Option Job × Option Message} (prepared : prepare srv t typ payload = outcome)
    (served : outcome ≠ (none, none))
    : typ = fxpRead ∨ typ = fxpWrite := by
  by_contra other
  rw [not_or] at other
  simp only [prepare, other.1, other.2, if_false] at prepared
  exact served prepared.symm

/-- The entries of a table are directories or made by the OPENs that granted them. -/
def Handles.GrantedBy (srv : Server) (log : List (Bytes × File))
    (granted : Bytes → Option OpenRequest) (t : Handles) : Prop :=
  ∀ tok h, t.get tok = some h
    → tok.length = 2 * handleBytes
      ∧ (h.dir = true ∧ granted tok = none ∨ ∃ m, granted tok = some m ∧ h.MadeBy srv log m)

/-- Everything a session holds comes from its trace: its table, what the request that runs
alone will make of it, and that what is in flight makes nothing of it.
-/
structure Session.Provenance (srv : Server) (trace : List Observation) (s : Session)
    : Prop where
  table : s.handles.GrantedBy srv (fileCustody.acquired (effects trace)) (grantedBy trace)
  phase : ∀ typ payload rest, s.phase = .answering typ payload rest
    → fileCustody.record.wp rest
        (fun log result => Outcome srv log s.handles typ payload result)
        (fileCustody.acquired (effects trace))
  flights : ∀ flight ∈ s.flights, flight.typ = fxpRead ∨ flight.typ = fxpWrite

section Sessions

variable {srv : Server} {log later : List (Bytes × File)} {t : Handles}
  {granted : Bytes → Option OpenRequest}

/-- What has been opened stays opened. -/
theorem OpenFile.MadeBy.mono {m : OpenRequest} {h : OpenFile} (made : h.MadeBy srv log m)
    (more : log ⊆ later)
    : h.MadeBy srv later m where
  isFile := made.isFile
  path := made.path
  write := made.write
  file file opened := more (made.file file opened)
  noFile absent := (made.noFile absent).imp_right fun ⟨file, opened, readOnly⟩ =>
    ⟨file, more opened, readOnly⟩

theorem Handles.GrantedBy.mono (grants : t.GrantedBy srv log granted) (more : log ⊆ later)
    : t.GrantedBy srv later granted := by
  intro tok h found
  obtain ⟨length, kind⟩ := grants tok h found
  refine ⟨length, kind.imp_right fun made => ?_⟩
  obtain ⟨m, by_m, made⟩ := made
  exact ⟨m, by_m, made.mono more⟩

/-- A request that has run leaves a table that is granted by its reply too. -/
theorem Outcome.grantedBy {typ : UInt8} {payload : Bytes} {result : Message × Handles}
    (outcome : Outcome srv log t typ payload result) (grants : t.GrantedBy srv log granted)
    : result.2.GrantedBy srv log
        (grantStep granted (.replied typ payload result.1)) := by
  cases outcome with
  | kept noHandle same =>
      rw [grantStep_replied noHandle]
      intro tok h found
      obtain ⟨old, before, kind⟩ := same tok h found
      obtain ⟨length, made⟩ := grants tok old before
      refine ⟨length, ?_⟩
      rcases kind with rfl | ⟨directory, moved⟩
      · exact made
      · rcases made with ⟨_, ungranted⟩ | ⟨m, _, made⟩
        · exact .inl ⟨directory, ungranted⟩
        · cases directory.symm.trans ((congrArg OpenFile.dir moved).trans made.isFile)
  | @granted id new h length made =>
      intro tok h' found
      rcases Handles.get_insert_cases found with ⟨rfl, rfl⟩ | ⟨same, found⟩
      · refine ⟨length, ?_⟩
        rcases made with ⟨rfl, directory⟩ | ⟨rfl, m, decodes, made⟩
        · exact .inl ⟨directory, by simp [grantStep, fxpOpendir, fxpOpen]⟩
        · exact .inr ⟨m, by simp [grantStep, decodes, Except.toOption], made⟩
      · have untouched : grantStep granted (.replied typ payload (.handleReply ⟨id, new⟩)) tok
            = granted tok := by
          rcases made with ⟨rfl, _⟩ | ⟨rfl, _⟩
          · simp [grantStep, fxpOpendir, fxpOpen, Function.update_of_ne same]
          · simp [grantStep, Function.update_of_ne same]
        rw [untouched]
        exact grants tok h' found

/-- A step keeps the provenance of a session. -/
theorem Session.Step.provenance {s later : Session} {early trace : List Observation}
    (step : Session.Step srv s trace later) (safe : s.Safe srv fun _ => True)
    (provenance : s.Provenance srv early)
    : later.Provenance srv (early ++ trace) := by
  have recorded : fileCustody.acquired (effects (early ++ trace))
      = fileCustody.acquired (effects early) ++ fileCustody.acquired (effects trace) := by
    rw [effects_append, Custody.acquired_append]
  have table (nothing : trace.foldl grantStep (grantedBy early) = grantedBy early)
      : s.handles.GrantedBy srv (fileCustody.acquired (effects (early ++ trace)))
          (grantedBy (early ++ trace)) := by
    rw [grantedBy_append, nothing, recorded]
    exact provenance.table.mono (List.subset_append_left _ _)
  -- While a request is in flight nothing else runs.
  have alone {flight : Flight} (flying : flight ∈ s.flights)
      : ∀ typ payload rest, s.phase ≠ .answering typ payload rest := by
    intro typ payload rest phase
    have working := safe.phase
    rw [phase] at working
    rw [working.1] at flying
    cases flying
  have noHandle {typ : UInt8} (kind : typ = fxpRead ∨ typ = fxpWrite) (reply : Message)
      : typ = fxpOpen ∨ typ = fxpOpendir → isHandle reply = false := by
    intro other
    rcases kind with rfl | rfl
    · exact absurd other (by decide)
    · exact absurd other (by decide)
  cases step with
  | negotiated phase accepted => exact ⟨table rfl, nofun, provenance.flights⟩
  | refused phase => exact ⟨table rfl, nofun, provenance.flights⟩
  | started phase prepared =>
      refine ⟨table rfl, fun _ _ _ now => (nomatch phase.symm.trans now), ?_⟩
      intro flight member
      rcases List.mem_append.mp member with old | new
      · exact provenance.flights flight old
      · rw [List.mem_singleton.mp new]
        exact typ_of_prepare prepared nofun
  | early phase alone prepared =>
      have kind := typ_of_prepare prepared nofun
      exact ⟨table (grantStep_replied (noHandle kind _)),
        fun _ _ _ now => (nomatch phase.symm.trans now), provenance.flights⟩
  | dispatched phase alone prepared =>
      refine ⟨table rfl, fun _ _ _ now => ?_, provenance.flights⟩
      cases now
      exact record_dispatch _ _
  | @advanced typ payload effect next answer phase =>
      refine ⟨table rfl, fun _ _ _ now => ?_, provenance.flights⟩
      cases now
      have going := (provenance.phase typ payload _ phase).2 answer trivial
      have one : fileCustody.acquired (effects [.event ⟨effect, answer⟩])
          = (fileCustody.acquires effect answer).toList :=
        (Custody.acquired_cons ⟨effect, answer⟩).trans (List.append_nil _)
      rw [recorded, one]
      exact going
  | @answered typ payload reply handles phase =>
      refine ⟨?_, nofun, provenance.flights⟩
      have outcome := provenance.phase typ payload _ phase
      rw [grantedBy_append, recorded]
      exact (Outcome.grantedBy outcome provenance.table).mono (List.subset_append_left _ _)
  | @flew before after flight effect next answer inFlight asks =>
      have flying : flight ∈ s.flights := by simp [inFlight]
      refine ⟨table rfl, fun _ _ _ now => absurd now (alone flying _ _ _), ?_⟩
      intro other member
      rcases List.mem_append.mp member with first | second
      · exact provenance.flights other (by simp [inFlight, first])
      rcases List.mem_cons.mp second with rfl | last
      · exact provenance.flights flight flying
      · exact provenance.flights other (by simp [inFlight, last])
  | @landed before after flight reply inFlight returns =>
      have flying : flight ∈ s.flights := by simp [inFlight]
      have kind := provenance.flights flight flying
      refine ⟨table (grantStep_replied (noHandle kind reply)),
        fun _ _ _ now => absurd now (alone flying _ _ _), ?_⟩
      intro other member
      rcases List.mem_append.mp member with first | second
      · exact provenance.flights other (by simp [inFlight, first])
      · exact provenance.flights other (by simp [inFlight, second])
  | hungUp phase => exact ⟨table rfl, nofun, provenance.flights⟩
  | drained phase alone all => exact ⟨table rfl, nofun, provenance.flights⟩
  | closed answer phase => exact ⟨table rfl, nofun, provenance.flights⟩
  | returned phase => exact ⟨nofun, nofun, provenance.flights⟩

/-- By induction on the steps. -/
theorem Session.Run.provenance {s : Session} {trace : List Observation}
    (run : Session.Run srv Session.initial trace s)
    : s.Provenance srv trace := by
  induction run with
  | refl => exact ⟨nofun, nofun, nofun⟩
  | step run step ih =>
      have safe := (run.safe (fun _ _ => trivial) (receives_any srv _)).1
      exact step.provenance safe ih

end Sessions

end SftpServer.Sftp
