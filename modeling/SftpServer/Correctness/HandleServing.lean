import SftpServer.Correctness.FileServing

/-! The requests about handles: OPEN, OPENDIR and READDIR, CLOSE, and the copying from one open
file to another.
-/

namespace SftpServer.Sftp

open SftpServer.Foundations
open SftpServer.Wire

section Commands

variable {State : Type} {store : HonestStore State} {srv : Server} {t : Handles} {adrift : Adrift}
  {s : State} {command : Command} (names : store.Names s adrift t)

include names

/-- A handle is granted, on files that are those at its path, or the table stays as it is. -/
inductive HonestStore.Granting {State : Type} (store : HonestStore State) (t : Handles)
    (grant : Grant) : (Message × Handles) × State → Prop where
  | granted {id : UInt32} {token : Bytes} {h : OpenFile} {later : State} (same : h.grant = grant)
    (named : ∀ file, h.file = some file ∨ h.writable = some file
      → store.isAt later file h.path)
    : Granting store t grant ((.handleReply ⟨id, token⟩, AList.insert token h t), later)
  | refused {reply : Message} {later : State} (noHandle : isHandle reply = false)
    : Granting store t grant ((reply, t), later)

/-- A command that grants a handle, which is not adrift, or is refused. -/
theorem HonestStore.Granting.fulfils {grant : Grant} {result : (Message × Handles) × State}
    (noClose : command.isClose = false)
    (grants : ∀ held id token, command.granted held (.handleReply ⟨id, token⟩)
      = Function.update held token (some grant))
    (anchors : ∀ held id token, command.anchors held (.handleReply ⟨id, token⟩)
      = Function.update held token false)
    (spares : store.Spares s (command.touches t.grants adrift) command.moves result.2)
    (readOnly : srv.ro = true → store.contents result.2 = store.contents s)
    (tells : command.Tells srv (store.contents s) t.grants adrift result.1.1
      (store.contents result.2))
    (granting : store.Granting t grant result)
    : store.Fulfils srv t adrift s command result := by
  cases granting with
  | refused noHandle => exact fulfils_plain names noClose noHandle spares readOnly tells
  | @granted id token h later same named =>
      refine ⟨spares, readOnly, ?_, tells, ?_⟩
      · rw [grants, Handles.grants_insert, same]
      · rw [anchors]
        intro other h' found anchored
        rcases Handles.get_insert_cases found with ⟨rfl, rfl⟩ | ⟨apart, found⟩
        · exact named
        · rw [Function.update_of_ne apart] at anchored
          exact names.casts spares other h' found anchored

omit names in
theorem granting_registerHandle (id : UInt32) {h : OpenFile} {grant : Grant}
    (same : h.grant = grant)
    (named : ∀ file, h.file = some file ∨ h.writable = some file → store.isAt s file h.path)
    : store.Granting t grant (Interaction.exec store.respond s (registerHandle t id h)) := by
  simp only [registerHandle, Handles.add, randRead, Interaction.exec_bind, Interaction.exec_ask,
    Interaction.exec_ret, FileStore.respond]
  cases (store.random s).1 with
  | ok bytes =>
      exact .granted same fun file opened => store.random_stays s file h.path (named file opened)
  | error err =>
      simp only [Interaction.pure_eq, Interaction.exec_ret, Interaction.exec_bind]
      exact .refused rfl

omit names in
theorem granting_finishOpen (id : UInt32) (path : Bytes) (write : Bool)
    : store.Granting t ⟨path, false, write⟩
        (Interaction.exec store.respond s (finishOpen srv t id path write)) := by
  unfold finishOpen
  cases srv.opener with
  | false =>
      refine granting_registerHandle id rfl ?_
      simp
  | true =>
      simp only [Bool.not_true, Bool.false_eq_true, if_false, Fsys.openFile, File.close,
        Interaction.exec_bind, Interaction.exec_ask, Interaction.exec_ret, FileStore.respond]
      rcases answered : (store.serve s (.openFile path)).1 with err | _ | file
      · exact .refused rfl
      · exact .refused rfl
      have opened := store.opens s path file answered
      dsimp only
      split
      · refine granting_registerHandle id rfl ?_
        simp [opened]
      split
      · refine granting_registerHandle id rfl ?_
        simp [opened]
      simp only [Interaction.exec_bind, Interaction.exec_ask, Interaction.exec_ret,
        FileStore.respond]
      rcases (store.serve (store.serve s (.openFile path)).2 (.fileClose file)).1 with _ | err
      · refine granting_registerHandle id rfl ?_
        simp
      · exact .refused rfl

section Opening

variable {m : OpenRequest} {path : Bytes}

omit names in
theorem granting_openStated (st : Option Stat) (statErr : Option DriverError)
    : store.Granting t ⟨path, false, wantsWrite m.pflags⟩
        (Interaction.exec store.respond s (openStated srv t m path st statErr)) := by
  unfold openStated
  split
  · exact .refused rfl
  cases wantsWrite m.pflags with
  | false =>
      simp only [Bool.false_eq_true, if_false]
      split
      · exact .refused rfl
      · exact granting_finishOpen m.id path false
  | true =>
      simp only [if_true, openForWrite]
      split
      · exact .refused rfl
      split
      · exact .refused rfl
      split
      · rw [Fsys.writeFile, Interaction.ask_bind, Interaction.exec_ask]
        cases (store.respond s (.driver (.writeFile path [] (permOr m.attrs 0o644)))).1 with
        | none => exact granting_finishOpen m.id path true
        | some err => exact .refused rfl
      · exact granting_finishOpen m.id path true

omit names in
/-- The flags of an OPEN that is granted and has written nothing. -/
theorem flags_of_granted {st : Option Stat} {statErr : Option DriverError}
    (idle : ¬WritesFirst m st)
    (granted : isHandle
      (Interaction.exec store.respond s (openStated srv t m path st statErr)).1.1 = true)
    : m.pflags &&& fxfTrunc = 0 ∧ (m.pflags &&& fxfCreat = 0 ∨ m.pflags &&& fxfExcl = 0) := by
  cases wants : wantsWrite m.pflags with
  | false =>
      exact ⟨clear_of_not_wantsWrite wants (by decide),
        .inl (clear_of_not_wantsWrite wants (by decide))⟩
  | true =>
      unfold openStated openForWrite at granted
      split at granted
      · cases granted
      rename_i isFile
      split at granted
      · cases granted
      rename_i inclusive
      split at granted
      · cases granted
      rename_i present
      cases st with
      | none =>
          refine absurd (writesFirst_of_create fun noCreate => ?_) idle
          exact present ⟨rfl, noCreate⟩
      | some st =>
          have shared : m.pflags &&& fxfExcl = 0 := by
            by_contra exclusive
            exact inclusive ⟨rfl, exclusive⟩
          refine ⟨?_, .inr shared⟩
          by_contra truncates
          exact idle ⟨by simpa using isFile, wants, .inr ⟨rfl, shared, truncates⟩⟩

theorem fulfils_openStated (writable : wantsWrite m.pflags = true → srv.ro = false)
    (st : Option Stat) (statErr : Option DriverError)
    : store.Fulfils srv t adrift s (.openFile m path)
        (Interaction.exec store.respond s (openStated srv t m path st statErr)) := by
  have granting := @granting_openStated _ store srv t s m path st statErr
  by_cases writes : WritesFirst m st
  · have wants := writes.2.1
    have reason : m.pflags &&& fxfTrunc ≠ 0 ∨ m.pflags &&& fxfCreat ≠ 0 :=
      writes.2.2.elim (fun absent => .inr absent.2) fun present => .inl present.2.2
    have touched : (Command.openFile m path).touches t.grants adrift = [path] := if_pos wants
    have opens (s : State) : (finishOpen srv t m.id path true).Asks
        (Touching (store.Steady s []) [] []) fun _ => True :=
      (finishOpen_harmless srv t m.id path true).mono (fun _ => Harmless.touching)
        fun _ _ => trivial
    have steps := openStated_writes srv t path statErr writes
    refine granting.fulfils names rfl (fun _ _ _ => rfl) (fun _ _ _ => rfl) ?_
      (by simp [writable wants]) ?_
    · rw [touched, steps]
      refine @HonestStore.exec_spares _ _ _ _ _ (fun _ => True) store s
        ⟨.still (List.mem_singleton_self _) rfl, fun answer => ?_⟩
      cases answer with
      | some err => exact trivial
      | none =>
          exact (opens s).mono (fun _ touching => touching.mono (List.nil_subset _)
            (List.Subset.refl _)) fun _ => id
    · rw [steps, Interaction.exec_ask, FileStore.respond]
      cases answered : (store.serve s (.writeFile path [] (permOr m.attrs 0o644))).1 with
      | some err =>
          intro granted
          cases granted
      | none =>
          intro granted
          exact .inr ⟨(store.exec_spares (opens _)).untouched.trans
            (store.writes s path [] _ answered), reason⟩
  · have spares := @HonestStore.exec_spares _ [] [] _ _ _ store s
      ((openStated_harmless srv t path statErr writes).mono (fun _ => Harmless.touching)
        fun _ => id)
    refine granting.fulfils names rfl (fun _ _ _ => rfl) (fun _ _ _ => rfl)
      (spares.mono (List.nil_subset _)) (fun _ => spares.untouched) fun granted => ?_
    exact .inl ⟨spares.untouched, flags_of_granted writes granted⟩

end Opening

theorem fulfils_opOpen (m : OpenRequest)
    : store.Fulfils srv t adrift s (.ofPath m.path (.openFile m))
        (Interaction.exec store.respond s (opOpen srv t m)) := by
  refine fulfils_resolved names fun path => ?_
  by_cases denied : (wantsWrite m.pflags && srv.ro) = true
  · rw [if_pos denied]
    exact fulfils_declined names (declines_status _ _ (by decide)) rfl
  rw [if_neg denied]
  by_cases full : t.full = true
  · rw [if_pos full]
    exact fulfils_declined names (declines_status _ _ (by decide)) rfl
  rw [if_neg full, locked, store.exec_withLock, Fsys.stat, Interaction.ask_bind,
    Interaction.exec_ask]
  have writable (wants : wantsWrite m.pflags = true) : srv.ro = false := by
    simpa [wants] using denied
  have stated : store.Spares s [] [] (store.respond s (.driver (.stat path))).2 :=
    .respond (.still trivial rfl) (.refl store s)
  have names := names.stays stated
  refine HonestStore.Fulfils.from_same stated ?_
  rw [FileStore.respond]
  cases (store.serve s (.stat path)).1 with
  | ok st => exact fulfils_openStated names writable st none
  | error err => exact fulfils_openStated names writable none (some err)

omit names in
theorem granting_opOpendir {m : PathRequest} {path : Bytes}
    (resolved : resolve m.id m.path = .ok path)
    : store.Granting t ⟨path, true, false⟩
        (Interaction.exec store.respond s (opOpendir t m)) := by
  simp only [opOpendir, resolved]
  split
  · exact .refused rfl
  simp only [rlocked, store.exec_withLock, Fsys.stat, Fsys.listDir, Handles.add, randRead,
    Interaction.exec_bind, Interaction.exec_ask, Interaction.exec_ret, FileStore.respond]
  rcases (store.serve s (.stat path)).1 with err | _ | st
  · exact .refused rfl
  · exact .refused rfl
  dsimp only
  split
  · exact .refused rfl
  simp only [Interaction.exec_bind, Interaction.exec_ask, Interaction.exec_ret]
  rcases (store.respond (store.serve s (.stat path)).2 (.driver (.listDir path))).1
    with err | entries
  · exact .refused rfl
  dsimp only
  simp only [Interaction.exec_bind, Interaction.exec_ask, Interaction.exec_ret]
  rcases (store.respond (store.respond (store.serve s (.stat path)).2
    (.driver (.listDir path))).2 .randRead).1 with err | bytes
  · exact .refused rfl
  · refine .granted rfl ?_
    simp

theorem fulfils_opOpendir (m : PathRequest)
    : store.Fulfils srv t adrift s (.ofPath m.path .openDir)
        (Interaction.exec store.respond s (opOpendir t m)) := by
  have spares := @HonestStore.exec_spares _ [] [] _ (opOpendir t m) _ store s
    (opOpendir_section sharedCalls_touching m).touching
  cases resolved : resolve m.id m.path with
  | error bad =>
      simp only [opOpendir, resolved]
      exact fulfils_unresolved names resolved
  | ok path =>
      have granting := @granting_opOpendir _ store t s m path resolved
      rw [Command.ofPath, clean_of_resolve resolved]
      exact granting.fulfils names rfl (fun _ _ _ => rfl) (fun _ _ _ => rfl) spares
        (fun _ => spares.untouched) trivial

omit names in
/-- READDIR moves a position. -/
theorem opReaddir_moves (m : HandleRequest)
    : (opReaddir srv t m).Asks (fun _ => True) fun result =>
        result.2 = t
        ∨ ∃ h pos, t.get m.handle = some h ∧ result.2 = AList.insert m.handle { h with pos } t := by
  unfold opReaddir
  split
  · exact .inl rfl
  rename_i h found
  split
  · exact .inl rfl
  refine asks_withLock (fun _ => trivial) ?_
  rw [Interaction.asks_bind]
  refine (Interaction.asks_true _).mono (fun _ holds => holds) fun moved _ => ?_
  dsimp only
  split
  · exact .inr ⟨h, _, found, rfl⟩
  · exact .inr ⟨h, _, found, rfl⟩

theorem fulfils_opReaddir (m : HandleRequest)
    : store.Fulfils srv t adrift s .other
        (Interaction.exec store.respond s (opReaddir srv t m)) := by
  have spares := @HonestStore.exec_spares _ [] [] _ (opReaddir srv t m) _ store s
    (opReaddir_section sharedCalls_touching m).touching
  have kept := @HonestStore.Names.casts _ _ _ _ _ _ _ .other names spares
  have moves := (@opReaddir_moves srv t m).exec_result store.respond s
  refine ⟨spares, fun _ => spares.untouched, ?_, trivial, ?_⟩
  · rcases moves with same | ⟨h, pos, found, same⟩
    · rw [same]
      rfl
    · rw [same, Handles.grants_insert]
      exact Function.update_eq_self_iff.mpr (Handles.grants_of_get found).symm
  · rcases moves with same | ⟨h, pos, found, same⟩
    · rw [same]
      exact kept
    · rw [same]
      intro token other now
      rcases Handles.get_insert_cases now with ⟨rfl, rfl⟩ | ⟨_, before⟩
      · exact kept m.handle h found
      · exact kept token other before

omit names in
/-- CLOSE touches no file and takes the handle back. -/
theorem opClose_takes {isAt : File → Bytes → Prop} (m : HandleRequest)
    : (opClose t m).Asks (Touching isAt [] []) fun result =>
        result.2 = t ∧ t.get m.handle = none ∨ result.2 = t.erase m.handle := by
  unfold opClose Handles.remove
  cases found : t.lookup m.handle with
  | none => exact .inl ⟨rfl, found⟩
  | some h =>
      refine asks_withLock touching_lock ?_
      simp only [Interaction.asks_bind]
      have synced : h.syncFile.Asks (Touching isAt [] []) fun _ => True := by
        unfold OpenFile.syncFile
        split
        · exact ⟨.still trivial rfl, fun _ => trivial⟩
        · trivial
      refine synced.mono (fun _ holds => holds) fun syncErr _ => ?_
      refine (closeFile_asks fun file _ => .still trivial rfl).mono (fun _ holds => holds)
        fun closeErr _ => ?_
      split
      · exact .inr rfl
      · exact .inr rfl

theorem fulfils_opClose (m : HandleRequest)
    : store.Fulfils srv t adrift s (.close m.handle)
        (Interaction.exec store.respond s (opClose t m)) := by
  have asks := @opClose_takes t (store.Steady s []) m
  have spares := store.exec_spares asks
  have kept := @HonestStore.Names.casts _ _ _ _ _ _ _ (.close m.handle) names spares
  refine ⟨spares, fun _ => spares.untouched, ?_, trivial, ?_⟩
  · rcases asks.exec_result store.respond s with ⟨same, absent⟩ | same
    · rw [same]
      refine (Function.update_eq_self_iff.mpr ?_).symm
      rw [Handles.grants, absent]
      rfl
    · rw [same]
      exact Handles.grants_erase t m.handle
  · rcases asks.exec_result store.respond s with ⟨same, _⟩ | same
    · rw [same]
      exact kept
    · rw [same]
      intro token other left
      exact kept token other (Handles.get_of_get_erase left)

section Copying

variable {isAt : File → Bytes → Prop} {tops : List Bytes} {dst : File}
  (writes : [slash] ∈ tops ∨ ∃ top ∈ tops, isAt dst top)

include writes

omit names in
theorem growTo_touching (size stop : Int64)
    : (growTo dst size stop).Asks (Touching isAt tops []) fun _ => True := by
  unfold growTo
  split
  · exact ⟨.of_call writes (List.nil_subset _), fun _ => trivial⟩
  · trivial

omit names in
theorem copyLocked_settles (id : UInt32) (src : File) (m : CopyRequest)
    : (copyLocked id src dst m).Asks (Touching isAt tops []) (Concludes id) := by
  refine .call (.still trivial rfl) fun size => .call (.still trivial rfl) fun targetSize => ?_
  rw [Interaction.asks_bind]
  refine (growTo_touching writes _ _).mono (fun _ holds => holds) fun failure _ => ?_
  cases failure with
  | some err => exact .inl (declines_statusErr id err (by decide))
  | none =>
      refine .call (.of_call writes (List.nil_subset _)) fun copied => ?_
      cases copied with
      | none => exact .inr rfl
      | some err => exact .inl (declines_statusErr id err (by decide))

end Copying

theorem fulfils_copyData (id : UInt32) (data : Bytes)
    : store.Fulfils srv t adrift s (.ofDecoded (decodeCopyRequest data) (.copy id))
        (Interaction.exec store.respond s (keeping t (copyData srv t id data))) := by
  have outcome := copyData_outcome srv t id data
  generalize copyData srv t id data = program at outcome
  cases outcome with
  | @refused code msg refusal =>
      have noClose : (Command.ofDecoded (decodeCopyRequest data) (.copy id)).isClose = false := by
        cases decodeCopyRequest data <;> rfl
      refine fulfils_plain names noClose rfl (.refl store s) (fun _ => rfl) ?_
      cases decodeCopyRequest data with
      | error err => trivial
      | ok m => exact fun acknowledged => absurd acknowledged (status_ne_ok refusal)
  | @served m src dst file writable decodes served =>
      have open_ : srv.ro = false := by
        have offered := served.offered
        simp only [Server.copiesData, Bool.and_eq_true, Bool.not_eq_true'] at offered
        exact offered.2
      rw [decodes]
      change store.Fulfils srv t adrift s (.copy id m) _
      refine fulfils_withLock
        (@fulfils_settled _ _ _ _ _ _ _ names _ id open_ rfl ?_ fun ok _ => ?_)
      · exact copyLocked_settles (names.reaches served.target (.inr served.writes)) id file m
      refine ⟨src.grant, dst.grant, Handles.grants_of_get served.source,
        Handles.grants_of_get served.target, served.forWriting, served.apart, ?_⟩
      intro data old sourced targeted found stored sized small readFits writeFits
      exact store.copyLocked_ok served.inRange
        (names m.source src served.source sourced file (.inl served.opened))
        (names m.target dst served.target targeted writable (.inr served.writes)) served.apart
        found stored sized small readFits writeFits ok

theorem fulfils_opExtended (m : ExtendedRequest)
    : store.Fulfils srv t adrift s
        (if m.name = copyDataExtension then
          .ofDecoded (decodeCopyRequest m.data) (.copy m.id)
        else .other)
        (Interaction.exec store.respond s (keeping t (opExtended srv t m))) := by
  unfold opExtended
  by_cases limits : m.name = limitsExtension
  · rw [if_pos limits, if_neg (by rw [limits]; decide)]
    exact fulfils_looking names trivial
  rw [if_neg limits]
  by_cases copies : m.name = copyDataExtension
  · rw [if_pos copies, if_pos copies]
    exact fulfils_copyData names m.id m.data
  · rw [if_neg copies, if_neg copies]
    exact fulfils_looking names trivial

end Commands

end SftpServer.Sftp
