import SftpServer.Correctness.FileReads
import SftpServer.Correctness.FileService

/-! The server is a service of files. Each handler is walked through once: which files it
touches, which handles it grants, and what its reply tells.
-/

namespace SftpServer.Sftp

open SftpServer.Foundations
open SftpServer.Wire

def OpenFile.grant (h : OpenFile) : Grant := ⟨h.path, h.dir, h.write⟩

/-- The handles of a session, as its client sees them. -/
def Handles.grants (t : Handles) : Grants := fun token => (t.get token).map OpenFile.grant

theorem Handles.grants_insert (t : Handles) (token : Bytes) (h : OpenFile)
    : Handles.grants (AList.insert token h t) = Function.update t.grants token (some h.grant) := by
  funext other
  by_cases same : other = token
  · subst same
    simp [Handles.grants, Handles.get]
  · simp [Handles.grants, Handles.get, same]

theorem Handles.grants_erase (t : Handles) (token : Bytes)
    : Handles.grants (AList.erase token t) = Function.update t.grants token none := by
  funext other
  by_cases same : other = token
  · subst same
    simp [Handles.grants, Handles.get]
  · simp [Handles.grants, Handles.get, same]

theorem Handles.grants_of_get {t : Handles} {token : Bytes} {h : OpenFile}
    (found : t.get token = some h)
    : t.grants token = some h.grant := by
  rw [Handles.grants, found]
  rfl

/-- What a handle of the table reaches. -/
theorem Handles.reach_of_get {t : Handles} {adrift : Adrift} {token : Bytes} {h : OpenFile}
    (found : t.get token = some h)
    : Command.reach t.grants adrift token
      = if adrift token then [[slash]] else [h.path] := by
  rw [Command.reach, Handles.grants_of_get found]
  rfl

-----------------------------------------------------------------------------------------
-- What a program touches
-----------------------------------------------------------------------------------------

theorem below_root (path : Bytes) : Below [slash] path := List.nil_prefix

theorem DriverCall.Confined.mono {isAt found : File → Bytes → Prop} {tops more : List Bytes}
    {call : DriverCall} (finds : ∀ file top, isAt file top → found file top)
    (fewer : tops ⊆ more) (confined : call.Confined isAt tops)
    : call.Confined found more := by
  cases call with
  | writeFile | mkDir | deleteFile | deleteDir | symlink | truncate => exact fewer confined
  | rename => exact ⟨fewer confined.1, fewer confined.2⟩
  | fileWriteAt | fileTruncate | copyRange =>
      obtain ⟨top, named, here⟩ := confined
      exact ⟨top, fewer named, finds _ _ here⟩
  | _ => trivial

/-- An effect that changes files only at or below some paths, where an open file may be the one
at a path, and moves or removes files only at or below others.
-/
def Touching (isAt : File → Bytes → Prop) (tops moved : List Bytes) (effect : Effect) : Prop :=
  ∀ call, effect = .driver call
    → ([slash] ∈ tops ∨ call.Confined isAt tops) ∧ call.moves ⊆ moved

section Touching

variable {isAt : File → Bytes → Prop} {tops moved : List Bytes}

theorem Touching.of_call {call : DriverCall} (reaches : [slash] ∈ tops ∨ call.Confined isAt tops)
    (moves : call.moves ⊆ moved)
    : Touching isAt tops moved (.driver call) := by
  intro other same
  cases same
  exact ⟨reaches, moves⟩

/-- A call that moves and removes nothing. -/
theorem Touching.still {call : DriverCall} (confined : call.Confined isAt tops)
    (still : call.moves = [])
    : Touching isAt tops moved (.driver call) :=
  .of_call (.inr confined) (still ▸ List.nil_subset _)

theorem Touching.mono {effect : Effect} {more others : List Bytes} (fewer : tops ⊆ more)
    (less : moved ⊆ others) (touching : Touching isAt tops moved effect)
    : Touching isAt more others effect := by
  intro call same
  obtain ⟨confined, moves⟩ := touching call same
  exact ⟨confined.imp (@fewer _) fun confined => confined.mono (fun _ _ => id) fewer,
    List.Subset.trans moves less⟩

theorem touching_lock (op : LockOp) : Touching isAt tops moved (.lock op) := nofun

theorem touching_randRead : Touching isAt tops moved .randRead := nofun

/-- A call that does not mutate touches nothing. -/
theorem Harmless.touching {effect : Effect} (harmless : Harmless effect)
    : Touching isAt tops moved effect := by
  rintro call rfl
  have steady := harmless call rfl
  cases call <;> first | exact ⟨.inr trivial, List.nil_subset _⟩ | cases steady

theorem sharedCalls_touching : SharedCalls (Touching isAt tops moved) where
  stat _ := .still trivial rfl
  listDir _ := .still trivial rfl
  readLink _ := .still trivial rfl
  randRead := touching_randRead

theorem OneSection.touching {α : Type} {program : Prog α}
    (one : OneSection (Touching isAt tops moved) (Touching isAt tops moved) program)
    : program.Asks (Touching isAt tops moved) fun _ => True := by
  cases one with
  | reply value => trivial
  | shared asks => exact asks_withLock touching_lock asks
  | exclusive asks => exact asks_withLock touching_lock asks

end Touching

section Store

variable {State : Type} {store : HonestStore State} {s : State}

/-- An open file is the one at a path, and stays it while nothing is moved or removed but at or
below these paths.
-/
def HonestStore.Steady {State : Type} (store : HonestStore State) (s : State)
    (moved : List Bytes) (file : File) (path : Bytes) : Prop :=
  store.isAt s file path ∧ (store.follows = true → ∀ top ∈ moved, ¬Below top path)

/-- What is the same after calls that touch these paths and move those. -/
structure HonestStore.Spares {State : Type} (store : HonestStore State) (s : State)
    (tops moved : List Bytes) (later : State) : Prop where
  others : ∀ path, (∀ top ∈ tops, ¬Below top path)
    → store.contents later path = store.contents s path
  stays : ∀ file path, store.Steady s moved file path → store.isAt later file path

variable {tops moved : List Bytes}

theorem HonestStore.Spares.refl (store : HonestStore State) (s : State)
    : store.Spares s tops moved s :=
  ⟨fun _ _ => rfl, fun _ _ => And.left⟩

theorem HonestStore.Spares.respond {later : State} {effect : Effect}
    (touching : Touching (store.Steady s moved) tops moved effect)
    (spares : store.Spares s tops moved later)
    : store.Spares s tops moved (store.respond later effect).2 := by
  cases effect with
  | lock op => exact spares
  | randRead =>
      refine ⟨fun path apart => ?_, fun file path steady => ?_⟩
      · exact (congrFun (store.random_keeps later) path).trans (spares.others path apart)
      · exact store.random_stays later file path (spares.stays file path steady)
  | driver call =>
      obtain ⟨confined, moves⟩ := touching call rfl
      refine ⟨fun path apart => ?_, fun file path steady => ?_⟩
      · rcases confined with all | confined
        · exact absurd (below_root path) (apart _ all)
        · exact (store.keepsOthers later call tops path
            (confined.mono spares.stays (List.Subset.refl _)) apart).trans
              (spares.others path apart)
      · exact store.stays later call file path (fun follows top moved =>
          steady.2 follows top (moves moved)) (spares.stays file path steady)

theorem HonestStore.Spares.mono {later : State} {more : List Bytes} (fewer : tops ⊆ more)
    (spares : store.Spares s tops moved later)
    : store.Spares s more moved later :=
  ⟨fun path apart => spares.others path fun top named => apart top (fewer named), spares.stays⟩

theorem HonestStore.Spares.untouched {later : State} (spares : store.Spares s [] moved later)
    : store.contents later = store.contents s :=
  funext fun path => spares.others path nofun

variable {α : Type} {program : Prog α} {Q : α → Prop}

theorem HonestStore.exec_spares (store : HonestStore State) {s : State}
    (asks : program.Asks (Touching (store.Steady s moved) tops moved) Q)
    : store.Spares s tops moved (Interaction.exec store.respond s program).2 :=
  asks.exec_invariant (fun _ _ touching => .respond touching) (.refl store s)

end Store

-----------------------------------------------------------------------------------------
-- What a request comes to
-----------------------------------------------------------------------------------------

/-- The files of the handles that are not adrift are those at their paths. -/
def HonestStore.Names {State : Type} (store : HonestStore State) (s : State) (adrift : Adrift)
    (t : Handles) : Prop :=
  ∀ token h, t.get token = some h → adrift token = false
    → ∀ file, h.file = some file ∨ h.writable = some file → store.isAt s file h.path

theorem HonestStore.names_empty {State : Type} (store : HonestStore State) (s : State)
    (adrift : Adrift)
    : store.Names s adrift ∅ :=
  nofun

/-- A command is done: with this reply, and the table and the driver that it leaves. -/
structure HonestStore.Fulfils {State : Type} (store : HonestStore State) (srv : Server)
    (t : Handles) (adrift : Adrift) (s : State) (command : Command)
    (result : (Message × Handles) × State) : Prop where
  spares : store.Spares s (command.touches t.grants adrift) command.moves result.2
  readOnly : srv.ro = true → store.contents result.2 = store.contents s
  granted : result.1.2.grants = command.granted t.grants result.1.1
  tells : command.Tells srv (store.contents s) t.grants adrift result.1.1
    (store.contents result.2)
  names : store.Names result.2
    (command.anchors (command.casts store.follows t.grants adrift) result.1.1) result.1.2

/-- Handles stay on their files while none is moved. -/
theorem HonestStore.Names.stays {State : Type} {store : HonestStore State} {s later : State}
    {adrift : Adrift} {t : Handles} {tops : List Bytes} (names : store.Names s adrift t)
    (spares : store.Spares s tops [] later)
    : store.Names later adrift t :=
  fun token h found anchored file opened =>
    spares.stays file h.path ⟨names token h found anchored file opened, nofun⟩

/-- The file of a handle is within its reach. -/
theorem HonestStore.Names.reaches {State : Type} {store : HonestStore State} {s : State}
    {adrift : Adrift} {t : Handles} {token : Bytes} {h : OpenFile} {file : File}
    (names : store.Names s adrift t) (found : t.get token = some h)
    (opened : h.file = some file ∨ h.writable = some file)
    : [slash] ∈ Command.reach t.grants adrift token
      ∨ ∃ top ∈ Command.reach t.grants adrift token, store.Steady s [] file top := by
  rw [Handles.reach_of_get found]
  cases drifts : adrift token with
  | true => exact .inl (List.mem_singleton_self _)
  | false =>
      exact .inr ⟨h.path, List.mem_singleton_self _,
        names token h found drifts file opened, nofun⟩

/-- Handles that no command has cast adrift. -/
theorem Command.casts_eq_false {follows : Bool} {grants : Grants} {adrift : Adrift}
    {command : Command} {token : Bytes}
    (anchored : command.casts follows grants adrift token = false)
    : adrift token = false
      ∧ ∀ grant, grants token = some grant
        → follows = true → ∀ top ∈ command.moves, ¬Below top grant.path := by
  simp only [Command.casts, Bool.or_eq_false_iff] at anchored
  refine ⟨anchored.1, fun grant found follows top moved below => ?_⟩
  have spared := anchored.2
  rw [follows, found, Bool.true_and, Option.any_some, List.any_eq_false] at spared
  exact spared top moved (decide_eq_true below)

/-- The handles of any client, after a command of one. -/
theorem HonestStore.Names.casts {State : Type} {store : HonestStore State} {s later : State}
    {adrift : Adrift} {t : Handles} {tops : List Bytes} {command : Command}
    (names : store.Names s adrift t) (spares : store.Spares s tops command.moves later)
    : store.Names later (command.casts store.follows t.grants adrift) t := by
  intro token h found anchored file opened
  obtain ⟨before, spared⟩ := Command.casts_eq_false anchored
  exact spares.stays file h.path
    ⟨names token h found before file opened, spared h.grant (Handles.grants_of_get found)⟩

/-- CLOSE takes its handle back whatever it is answered. -/
def Command.isClose : Command → Bool
  | .close _ => true
  | _ => false

/-- A STATUS that neither acknowledges nor reports the end of a file. -/
def declines (reply : Message) : Prop :=
  ∃ id code msg, reply = status id code msg ∧ code ≠ statusOK ∧ code ≠ statusEOF

theorem declines_status (id : UInt32) {code : Status} (msg : Bytes)
    (refusal : code ≠ statusOK ∧ code ≠ statusEOF)
    : declines (status id code msg) :=
  ⟨id, code, msg, rfl, refusal⟩

theorem declines_statusErr (id : UInt32) (err : DriverError) {fallback : Status}
    (honest : fallback ≠ statusOK ∧ fallback ≠ statusEOF)
    : declines (statusErr id (some err) fallback) :=
  declines_status id _
    ⟨statusFor_some_ne_ok err honest.1, statusFor_some_ne err (by decide) honest.2⟩

theorem declines.ne_ok {reply : Message} (declined : declines reply) (id : UInt32)
    : reply ≠ status id statusOK [] := by
  obtain ⟨_, code, msg, rfl, notOk, _⟩ := declined
  intro same
  simp only [status, Message.statusReply.injEq, StatusReply.mk.injEq] at same
  exact notOk same.2.1

theorem declines.ne_end {reply : Message} (declined : declines reply) (id : UInt32)
    : reply ≠ status id statusEOF [] := by
  obtain ⟨_, code, msg, rfl, _, notEnd⟩ := declined
  intro same
  simp only [status, Message.statusReply.injEq, StatusReply.mk.injEq] at same
  exact notEnd same.2.1

theorem declines.isHandle {reply : Message} (declined : declines reply)
    : isHandle reply = false := by
  obtain ⟨_, _, _, rfl, _⟩ := declined
  rfl

theorem declines.isData {reply : Message} (declined : declines reply)
    : isData reply = false := by
  obtain ⟨_, _, _, rfl, _⟩ := declined
  rfl

/-- No command is told anything by it. -/
theorem Command.tells_of_declines {srv : Server} {files later : Contents} {grants : Grants}
    {adrift : Adrift} {reply : Message} (declined : declines reply) (command : Command)
    : command.Tells srv files grants adrift reply later := by
  cases command with
  | openFile =>
      intro granted
      rw [declined.isHandle] at granted
      cases granted
  | read m =>
      refine ⟨fun data same => ?_, fun same => absurd same (declined.ne_end _)⟩
      have other := declined.isData
      rw [same] at other
      cases other
  | write | set | remove | rename | copy =>
      exact fun acknowledged => absurd acknowledged (declined.ne_ok _)
  | openDir | close | arrange | other => trivial

theorem Command.granted_of_plain {command : Command} {reply : Message}
    (noClose : command.isClose = false) (noHandle : isHandle reply = false) (grants : Grants)
    : command.granted grants reply = grants := by
  cases command with
  | openFile | openDir => cases reply <;> first | rfl | cases noHandle
  | close => cases noClose
  | _ => rfl

theorem Command.anchors_of_plain {reply : Message} (noHandle : isHandle reply = false)
    (adrift : Adrift) (command : Command)
    : command.anchors adrift reply = adrift := by
  cases command with
  | openFile | openDir => cases reply <;> first | rfl | cases noHandle
  | _ => rfl

/-- A request sees of the driver the files, and which of them are open where. -/
theorem HonestStore.Fulfils.from_same {State : Type} {store : HonestStore State} {srv : Server}
    {t : Handles} {adrift : Adrift} {s before : State} {command : Command}
    {result : (Message × Handles) × State} (spares : store.Spares before [] [] s)
    (done : store.Fulfils srv t adrift s command result)
    : store.Fulfils srv t adrift before command result where
  spares := {
    others := fun path apart =>
      (done.spares.others path apart).trans (spares.others path nofun)
    stays := fun file path steady =>
      done.spares.stays file path ⟨spares.stays file path ⟨steady.1, nofun⟩, steady.2⟩
  }
  readOnly ro := (done.readOnly ro).trans spares.untouched
  granted := done.granted
  tells := spares.untouched ▸ done.tells
  names := done.names

section Commands

variable {State : Type} {store : HonestStore State} {srv : Server} {t : Handles} {adrift : Adrift}
  {s : State} {command : Command} (names : store.Names s adrift t)

include names in
/-- A request that grants no handle and takes none back. -/
theorem fulfils_plain {reply : Message} {later : State} (noClose : command.isClose = false)
    (noHandle : isHandle reply = false)
    (spares : store.Spares s (command.touches t.grants adrift) command.moves later)
    (readOnly : srv.ro = true → store.contents later = store.contents s)
    (tells : command.Tells srv (store.contents s) t.grants adrift reply (store.contents later))
    : store.Fulfils srv t adrift s command ((reply, t), later) where
  spares := spares
  readOnly := readOnly
  granted := (Command.granted_of_plain noClose noHandle _).symm
  tells := tells
  names := by
    rw [Command.anchors_of_plain noHandle]
    exact names.casts spares

include names in
/-- A request that is declined at once. -/
theorem fulfils_declined {reply : Message} (declined : declines reply)
    (noClose : command.isClose = false)
    : store.Fulfils srv t adrift s command ((reply, t), s) :=
  fulfils_plain names noClose declined.isHandle (.refl store s) (fun _ => rfl)
    (Command.tells_of_declines declined command)

theorem exec_keeping {respond : State → (effect : Effect) → effect.Answer × State}
    (op : Prog Message)
    : Interaction.exec respond s (keeping t op)
      = (((Interaction.exec respond s op).1, t), (Interaction.exec respond s op).2) := by
  rw [keeping, Interaction.exec_bind]
  rfl

include names in
/-- A request that only looks. -/
theorem fulfils_looking {op : Prog Message}
    (asks : op.Asks (Touching (store.Steady s []) [] []) fun _ => True)
    : store.Fulfils srv t adrift s .other (Interaction.exec store.respond s (keeping t op)) := by
  have spares := store.exec_spares asks
  rw [exec_keeping]
  exact ⟨spares, fun _ => spares.untouched, rfl, trivial, names.casts spares⟩

/-- The lock is nothing to a request by itself. -/
theorem fulfils_withLock {op : Prog Message} {acquire release : LockOp}
    (done : store.Fulfils srv t adrift s command
      (Interaction.exec store.respond s (keeping t op)))
    : store.Fulfils srv t adrift s command
        (Interaction.exec store.respond s (keeping t (withLock acquire release op))) := by
  rw [exec_keeping] at done ⊢
  rwa [store.exec_withLock]

/-- A STATUS that declines, or acknowledges. -/
def Concludes (id : UInt32) (reply : Message) : Prop :=
  declines reply ∨ reply = status id statusOK []

theorem Concludes.isHandle {id : UInt32} {reply : Message} (concludes : Concludes id reply)
    : isHandle reply = false := by
  rcases concludes with declined | rfl
  · exact declined.isHandle
  · rfl

include names in
/-- A request that is declined or acknowledged, on an export that may be written. -/
theorem fulfils_settled {op : Prog Message} {id : UInt32} (writable : srv.ro = false)
    (noClose : command.isClose = false)
    (asks : op.Asks (Touching (store.Steady s command.moves) (command.touches t.grants adrift)
      command.moves) (Concludes id))
    (tells : (Interaction.exec store.respond s op).1 = status id statusOK []
      → command.Tells srv (store.contents s) t.grants adrift (status id statusOK [])
        (store.contents (Interaction.exec store.respond s op).2))
    : store.Fulfils srv t adrift s command
        (Interaction.exec store.respond s (keeping t op)) := by
  have settles := asks.exec_result store.respond s
  rw [exec_keeping]
  refine fulfils_plain names noClose settles.isHandle (store.exec_spares asks)
    (by simp [writable]) ?_
  rcases settles with declined | same
  · exact Command.tells_of_declines declined command
  · rw [same]
    exact tells same

include names in
/-- A request that is one call. -/
theorem fulfils_statusOf {call : Prog (Option DriverError)} (id : UInt32) {fallback : Status}
    (honest : fallback ≠ statusOK ∧ fallback ≠ statusEOF) (writable : srv.ro = false)
    (noClose : command.isClose = false)
    (asks : call.Asks (Touching (store.Steady s command.moves) (command.touches t.grants adrift)
      command.moves) fun _ => True)
    (tells : (Interaction.exec store.respond s call).1 = none
      → command.Tells srv (store.contents s) t.grants adrift (status id statusOK [])
        (store.contents (Interaction.exec store.respond s call).2))
    : store.Fulfils srv t adrift s command
        (Interaction.exec store.respond s (keeping t (statusOf id call fallback))) := by
  refine @fulfils_settled _ _ _ _ _ _ _ names _ id writable noClose ?_ fun ok => ?_
  · rw [statusOf, Interaction.asks_bind]
    refine asks.mono (fun _ holds => holds) fun answer _ => ?_
    cases answer with
    | none => exact .inr rfl
    | some err => exact .inl (declines_statusErr id err honest)
  · rw [exec_statusOf_state]
    refine tells ?_
    rw [statusOf, Interaction.exec_bind] at ok
    cases answered : (Interaction.exec store.respond s call).1 with
    | none => rfl
    | some err =>
        rw [answered] at ok
        exact absurd ok (status_ne_ok (statusFor_some_ne_ok err honest.1))

theorem isClose_ofPath {p : Bytes} {command : Bytes → Command}
    (noClose : ∀ path, (command path).isClose = false)
    : (Command.ofPath p command).isClose = false := by
  unfold Command.ofPath
  split
  · exact noClose _
  · rfl

include names in
/-- A path that is refused. -/
theorem fulfils_unresolved {id : UInt32} {p : Bytes} {bad : Message} {command : Bytes → Command}
    (refused : resolve id p = .error bad)
    : store.Fulfils srv t adrift s (Command.ofPath p command) ((bad, t), s) := by
  have none : clean p = none := by
    unfold resolve at refused
    split at refused
    · assumption
    · cases refused
  rw [refusal_of_resolve refused, Command.ofPath, none]
  exact fulfils_declined names (declines_status _ _ (by decide)) rfl

include names in
/-- A request on a path. -/
theorem fulfils_resolved {id : UInt32} {p : Bytes} {command : Bytes → Command}
    {op : Bytes → Prog (Message × Handles)}
    (done : ∀ path, store.Fulfils srv t adrift s (command path)
      (Interaction.exec store.respond s (op path)))
    : store.Fulfils srv t adrift s (Command.ofPath p command)
        (Interaction.exec store.respond s (match resolve id p with
          | .error bad => pure (bad, t)
          | .ok path => op path)) := by
  cases resolved : resolve id p with
  | error bad => exact fulfils_unresolved names resolved
  | ok path =>
      rw [Command.ofPath, clean_of_resolve resolved]
      exact done path

include names in
/-- The same for a request that leaves the table alone. -/
theorem fulfils_keeping_resolved {id : UInt32} {p : Bytes} {command : Bytes → Command}
    {op : Bytes → Prog Message}
    (done : ∀ path, store.Fulfils srv t adrift s (command path)
      (Interaction.exec store.respond s (keeping t (op path))))
    : store.Fulfils srv t adrift s (Command.ofPath p command)
        (Interaction.exec store.respond s (keeping t (match resolve id p with
          | .error bad => pure bad
          | .ok path => op path))) := by
  have resolves := @fulfils_resolved _ store srv t adrift s names id p command
    (fun path => keeping t (op path)) done
  cases resolved : resolve id p with
  | error bad =>
      rw [resolved] at resolves
      exact resolves
  | ok path =>
      rw [resolved] at resolves
      exact resolves

include names in
/-- A request that is refused on a read-only export, and then if its path is. -/
theorem fulfils_mutation {id : UInt32} {p : Bytes} {command : Bytes → Command}
    {op : Bytes → Prog Message} (noClose : ∀ path, (command path).isClose = false)
    (done : srv.ro = false → ∀ path, store.Fulfils srv t adrift s (command path)
      (Interaction.exec store.respond s (keeping t (op path))))
    : store.Fulfils srv t adrift s (Command.ofPath p command)
        (Interaction.exec store.respond s (keeping t (do
          if srv.ro then
            return status id statusPermissionDenied errReadOnly
          match resolve id p with
          | .error bad => return bad
          | .ok path => op path))) := by
  cases writable : srv.ro with
  | true =>
      exact fulfils_declined names (declines_status _ _ (by decide)) (isClose_ofPath noClose)
  | false => exact fulfils_keeping_resolved names (done writable)

include names

theorem fulfils_opMkdir (m : SetstatRequest)
    : store.Fulfils srv t adrift s (.ofPath m.path .arrange)
        (Interaction.exec store.respond s (keeping t (opMkdir srv m))) := by
  refine fulfils_mutation names (fun _ => rfl) fun writable path => ?_
  refine fulfils_withLock (fulfils_statusOf names m.id (by decide) writable rfl ?_ fun _ => trivial)
  exact ⟨.of_call (.inr (List.mem_singleton_self _)) (List.Subset.refl _), fun _ => trivial⟩

omit names in
theorem decodePath_packetType {typ : UInt8} {payload : Bytes} {m : PathRequest}
    (decodes : decodePath typ payload = .ok m)
    : m.packetType = typ :=
  (Yields.bind fun _ => .bind fun _ => .bind fun _ => .pure rfl :
    Yields _ fun m : PathRequest => m.packetType = typ) _ _ decodes

theorem fulfils_opRemove (m : PathRequest)
    : store.Fulfils srv t adrift s
        (.ofPath m.path (if m.packetType = fxpRmdir then .arrange else .remove m.id))
        (Interaction.exec store.respond s (keeping t (opRemove srv m))) := by
  refine fulfils_mutation names (fun path => by split <;> rfl) fun writable path => ?_
  split
  · refine fulfils_withLock <|
      fulfils_statusOf names m.id (by decide) writable rfl ?_ fun _ => trivial
    exact ⟨.of_call (.inr (List.mem_singleton_self _)) (List.Subset.refl _), fun _ => trivial⟩
  · refine fulfils_withLock <|
      fulfils_statusOf names m.id (by decide) writable rfl ?_ fun removed _ => ?_
    · exact ⟨.of_call (.inr (List.mem_singleton_self _)) (List.Subset.refl _), fun _ => trivial⟩
    · exact store.removes s path removed

theorem fulfils_opRename (m : RenameRequest)
    : store.Fulfils srv t adrift s
        (.ofPath m.oldPath fun oldPath => .ofPath m.newPath (.rename m.id oldPath))
        (Interaction.exec store.respond s (keeping t (opRename srv m))) := by
  refine fulfils_mutation names (fun _ => isClose_ofPath fun _ => rfl) fun writable oldPath => ?_
  refine fulfils_keeping_resolved names fun newPath => ?_
  refine fulfils_withLock <|
    fulfils_statusOf names m.id (by decide) writable rfl ?_ fun renamed _ => ?_
  · refine ⟨.of_call (.inr ⟨List.mem_cons_self .., ?_⟩) (List.Subset.refl _), fun _ => trivial⟩
    exact List.mem_cons_of_mem _ (List.mem_singleton_self _)
  · exact store.renames s oldPath newPath renamed

theorem fulfils_opSymlink (m : SymlinkRequest)
    : store.Fulfils srv t adrift s (.ofPath m.linkPath .arrange)
        (Interaction.exec store.respond s (keeping t (opSymlink srv m))) := by
  refine fulfils_mutation names (fun _ => rfl) fun writable path => ?_
  split
  · exact fulfils_declined names (declines_status _ _ (by decide)) rfl
  refine fulfils_withLock (fulfils_statusOf names m.id (by decide) writable rfl ?_ fun _ => trivial)
  exact ⟨.of_call (.inr (List.mem_singleton_self _)) (List.Subset.refl _), fun _ => trivial⟩

omit names in
theorem setSize_declines {isAt : File → Bytes → Prop} (id : UInt32) (path : Bytes)
    (a : Attributes)
    : (setSize srv id path a).Asks (Touching isAt [path] []) (Refusing declines True) := by
  unfold setSize
  split
  · trivial
  split
  · exact declines_status _ _ (by decide)
  split
  · exact declines_status _ _ (by decide)
  refine .call (.of_call (.inr (List.mem_singleton_self _)) (List.Subset.refl _)) fun answer => ?_
  cases answer with
  | none => trivial
  | some err => exact declines_statusErr id err (by decide)

omit names in
/-- A SETSTAT that goes on has set the size, if it is announced. -/
theorem setSize_sets {id : UInt32} {path : Bytes} {a : Attributes}
    (onwards : (Interaction.exec store.respond s (setSize srv id path a)).1 = none)
    : if a.has attrSize then
        ∀ old, store.contents s path = some old
          → store.contents (Interaction.exec store.respond s (setSize srv id path a)).2
            = Function.update (store.contents s) path (some (resize 0 old a.size.toNat))
      else
        store.contents (Interaction.exec store.respond s (setSize srv id path a)).2
          = store.contents s := by
  unfold setSize at onwards ⊢
  cases announced : a.has attrSize with
  | false => rfl
  | true =>
      simp only [announced, Bool.not_true, Bool.false_eq_true, if_false, if_true] at onwards ⊢
      by_cases able : (!srv.truncater) = true
      · rw [if_pos able] at onwards
        cases onwards
      rw [if_neg able] at onwards ⊢
      by_cases fits : maxInt64 < a.size
      · rw [if_pos fits] at onwards
        cases onwards
      rw [if_neg fits] at onwards ⊢
      simp only [Fsys.truncate, Interaction.exec_bind, Interaction.exec_ask, Interaction.exec_ret,
        FileStore.respond] at onwards ⊢
      cases answered : (store.serve s (.truncate path a.size.toInt64)).1 with
      | some err =>
          rw [answered] at onwards
          cases onwards
      | none =>
          intro old stored
          exact store.resizes s path a.size.toInt64 a.size.toNat old (toInt_toInt64 fits) stored
            answered

omit names in
theorem setAttribute_declines (id : UInt32) (announced : Bool) {call : Prog (Option DriverError)}
    {P : Effect → Prop} (asks : call.Asks P fun _ => True)
    : (setAttribute id announced call).Asks P (Refusing declines True) := by
  unfold setAttribute
  split
  · trivial
  rw [Interaction.asks_bind]
  refine asks.mono (fun _ holds => holds) fun answer _ => ?_
  cases answer with
  | none => trivial
  | some err => exact declines_statusErr id err (by decide)

omit names in
theorem setMetadata_settles {isAt : File → Bytes → Prop} (id : UInt32) (path : Bytes)
    (a : Attributes)
    : (setMetadata srv id path a).Asks (Touching isAt [] []) (Concludes id) := by
  have declined {announced : Bool} {call : Prog (Option DriverError)}
      (asks : call.Asks (Touching isAt [] []) fun _ => True)
      : (setAttribute id announced call).Asks (Touching isAt [] [])
          (Refusing (Concludes id) True) :=
    (setAttribute_declines id announced asks).mono (fun _ holds => holds)
      fun _ holds => holds.mono fun _ => .inl
  unfold setMetadata
  split
  · exact .inr rfl
  refine asks_refusing (declined ⟨.still trivial rfl, fun _ => trivial⟩) fun _ => ?_
  refine asks_refusing (declined ⟨.still trivial rfl, fun _ => trivial⟩) fun _ => ?_
  exact asks_refusing (declined ⟨.still trivial rfl, fun _ => trivial⟩) fun _ => .inr rfl

/-- SETSTAT of a path, whichever path that is. -/
theorem fulfils_opSetstat (id : UInt32) (path : Bytes) (a : Attributes)
    : store.Fulfils srv t adrift s (.set id path a)
        (Interaction.exec store.respond s (keeping t (opSetstat srv id path a))) := by
  cases writable : srv.ro with
  | true =>
      simp only [opSetstat, writable, if_true]
      exact fulfils_declined names (declines_status _ _ (by decide)) rfl
  | false =>
      rw [opSetstat, writable]
      refine fulfils_withLock (@fulfils_settled _ _ _ _ _ _ _ names _ id writable rfl
        (asks_refusing ((setSize_declines id path a).mono (fun _ holds => holds) ?_)
          fun _ : True => ?_) fun ok _ => ?_)
      · exact fun _ declined => declined.mono fun _ => .inl
      · exact (setMetadata_settles id path a).mono
          (fun _ touching => touching.mono (List.nil_subset _) (List.Subset.refl _))
          fun _ holds => holds
      · rw [Interaction.exec_bind] at ok ⊢
        cases sized : (Interaction.exec store.respond s (setSize srv id path a)).1 with
        | none =>
            dsimp only
            rw [(store.exec_spares (setMetadata_settles id path a)).untouched]
            exact setSize_sets sized
        | some refusal =>
            rw [sized] at ok
            have ends := (@setSize_declines srv (store.isAt s) id path a).exec_result
              store.respond s
            rw [sized] at ends
            have declined : declines refusal := ends
            exact absurd ok (declined.ne_ok id)

theorem fulfils_opFsetstat (m : FsetstatRequest)
    : store.Fulfils srv t adrift s
        ((t.grants m.handle).elim .other fun grant => .set m.id grant.path m.attrs)
        (Interaction.exec store.respond s (keeping t (opFsetstat srv t m))) := by
  unfold opFsetstat
  cases found : t.get m.handle with
  | none =>
      rw [Handles.grants, found]
      exact fulfils_declined names (declines_status _ _ (by decide)) rfl
  | some h =>
      rw [Handles.grants_of_get found]
      exact fulfils_opSetstat names m.id h.path m.attrs

end Commands

end SftpServer.Sftp
