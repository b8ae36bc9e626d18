import SftpServer.Correctness.SessionSafety
import SftpServer.Foundations.Custody

/-! The life of the driver's open files. What a session holds open is what its handle table
refers to; while a request works, what it has opened and not yet stored comes on top. So a
session that has returned holds nothing.
-/

namespace SftpServer.Sftp

open SftpServer.Foundations
open SftpServer.Wire

/-- An open file is a resource, kept with the path it was opened under. -/
def fileCustody : Custody Effect.Answer (Bytes × File) File where
  key := Prod.snd
  acquires
    | .driver (.openFile path), .ok (some file) => some (path, file)
    | _, _ => none
  releases
    | .driver (.fileClose file) => some file
    | _ => none
  uses
    | .driver call => call.files
    | _ => []

/-- The tokens drawn so far; with `distinct`, no token is drawn twice. -/
def draws (distinct : Bool) : Monitor Effect.Answer (List Bytes) where
  legal drawn
    | .randRead, .ok bytes => distinct = true → hexEncode bytes.toList ∉ drawn
    | _, _ => True
  allowed _ _ := True
  next drawn
    | .randRead, .ok bytes => hexEncode bytes.toList :: drawn
    | _, _ => drawn

/-- The files held open and the tokens drawn. -/
def lifecycle (distinct : Bool) : Monitor Effect.Answer (List (Bytes × File) × List Bytes) :=
  fileCustody.monitor.both (draws distinct)

/-- The files held open are those of these handles: each once, and with `distinct` tokens no
other.
-/
structure Balanced (distinct : Bool) (held : List (Bytes × File)) (handles : List OpenFile)
    : Prop where
  apart : (held.map Prod.snd).Nodup
  owns : (Handles.owned handles).Subperm held
  only : distinct = true → (Handles.owned handles).Perm held

namespace Balanced

variable {distinct : Bool} {held : List (Bytes × File)} {handles : List OpenFile}
  {h : OpenFile}

theorem perm {others : List OpenFile} (balanced : Balanced distinct held handles)
    (same : handles.Perm others)
    : Balanced distinct held others where
  apart := balanced.apart
  owns := (same.filterMap _).symm.subperm.trans balanced.owns
  only exactly := (same.filterMap _).symm.trans (balanced.only exactly)

/-- A handle without a file does not count. -/
theorem owned_cons_none (noFile : h.file = none)
    : Handles.owned (h :: handles) = Handles.owned handles := by
  simp [Handles.owned, noFile]

theorem owned_cons_some {file : File} (opened : h.file = some file)
    : Handles.owned (h :: handles) = (h.path, file) :: Handles.owned handles := by
  simp [Handles.owned, opened]

theorem without_iff (noFile : h.file = none)
    : Balanced distinct held (h :: handles) ↔ Balanced distinct held handles := by
  constructor
  · intro held
    obtain ⟨apart, owns, only⟩ := held
    rw [owned_cons_none noFile] at owns only
    exact ⟨apart, owns, only⟩
  · intro held
    obtain ⟨apart, owns, only⟩ := held
    rw [← owned_cons_none noFile] at owns only
    exact ⟨apart, owns, only⟩

/-- A file just opened, and the handle that is to keep it. -/
theorem opened {file : File} {path : Bytes} (balanced : Balanced distinct held handles)
    (keeps : h.file = some file) (named : h.path = path) (fresh : file ∉ held.map Prod.snd)
    : Balanced distinct ((path, file) :: held) (h :: handles) where
  apart := List.nodup_cons.mpr ⟨fresh, balanced.apart⟩
  owns := by
    rw [owned_cons_some keeps, named]
    exact (List.subperm_cons _).mpr balanced.owns
  only exactly := by
    rw [owned_cons_some keeps, named]
    exact (balanced.only exactly).cons _

/-- The file of a handle is held, and closing it leaves the files of the others. -/
theorem closed {file : File} (balanced : Balanced distinct held (h :: handles))
    (keeps : h.file = some file)
    : file ∈ held.map Prod.snd
      ∧ Balanced distinct (held.filter fun entry => entry.2 ≠ file) handles := by
  obtain ⟨apart, owns, only⟩ := balanced
  rw [owned_cons_some keeps] at owns only
  -- The keys held are distinct, so no other handle refers to the same file.
  have elsewhere : file ∉ (Handles.owned handles).map Prod.snd := by
    obtain ⟨part, same, within⟩ := owns
    have distinctKeys := apart.sublist (within.map Prod.snd)
    rw [(same.map Prod.snd).nodup_iff, List.map_cons, List.nodup_cons] at distinctKeys
    exact distinctKeys.1
  have others : ((h.path, file) :: Handles.owned handles).filter (fun entry => entry.2 ≠ file)
      = Handles.owned handles := by
    rw [List.filter_cons_of_neg (by simp), List.filter_eq_self]
    intro entry member
    have apart : entry.2 ≠ file := fun same => elsewhere (same ▸ List.mem_map_of_mem member)
    simpa using apart
  refine ⟨List.mem_map.mpr ⟨(h.path, file), owns.subset (by simp), rfl⟩, ?_, ?_, ?_⟩
  · exact apart.sublist (List.filter_sublist.map _)
  · rw [← others]
    exact owns.filter _
  · intro exactly
    rw [← others]
    exact (only exactly).filter _

/-- Fewer handles may be kept where tokens are not known to be distinct. -/
theorem sublist {fewer : List OpenFile} (balanced : Balanced false held handles)
    (less : fewer.Sublist handles)
    : Balanced false held fewer where
  apart := balanced.apart
  owns := (less.filterMap _).subperm.trans balanced.owns
  only := by simp

end Balanced

/-- The session's account: its table's files are those held, and its tokens were drawn. -/
structure Accounted (distinct : Bool) (state : List (Bytes × File) × List Bytes) (t : Handles)
    : Prop where
  balanced : Balanced distinct state.1 t.openFiles
  tokens : ∀ tok ∈ t, tok ∈ state.2

/-- A session that has just begun holds nothing. -/
theorem accounted_initial {distinct : Bool}
    : Accounted distinct ([], []) Session.initial.handles where
  balanced := ⟨List.nodup_nil, List.nil_subperm, fun _ => .rfl⟩
  tokens tok member := absurd member (by simp [Session.initial])

/-- Storing a handle under the token just drawn. -/
theorem accounted_insert {distinct : Bool} {held : List (Bytes × File)} {drawn : List Bytes}
    {t : Handles} {h : OpenFile} {tok : Bytes}
    (balanced : Balanced distinct held (h :: t.openFiles)) (tokens : ∀ tok ∈ t, tok ∈ drawn)
    (fresh : distinct = true → tok ∉ drawn)
    : Accounted distinct (held, tok :: drawn) (AList.insert tok h t) where
  balanced := by
    rw [Handles.openFiles_insert]
    -- A token that is in use would drop an entry and lose its file; distinct ones do not.
    cases distinct with
    | false => exact balanced.sublist ((Handles.openFiles_erase_sublist t tok).cons_cons h)
    | true =>
        have absent : tok ∉ t := fun member => fresh rfl (tokens tok member)
        have whole : t.erase tok = t :=
          AList.ext (List.kerase_of_notMem_keys fun member => absent (AList.mem_keys.mpr member))
        rw [whole]
        exact balanced
  tokens other member := by
    rcases (AList.mem_insert t).mp member with rfl | old
    · exact List.mem_cons_self ..
    · exact List.mem_cons_of_mem _ (tokens other old)

section Rules

variable {distinct : Bool} {held : List (Bytes × File)} {drawn : List Bytes} {α : Type}

/-- A call that brings nothing and closes nothing leaves the account alone. -/
theorem lifecycle_next_idle {effect : Effect} {answer : effect.Answer}
    (brings : fileCustody.acquires effect answer = none)
    (closes : fileCustody.releases effect = none)
    (drawsNone : (draws distinct).next drawn effect answer = drawn)
    : (lifecycle distinct).next (held, drawn) effect answer = (held, drawn) :=
  Prod.ext (Custody.next_idle brings closes) drawsNone

theorem lifecycle_next_open (path : Bytes) (file : File)
    : (lifecycle distinct).next (held, drawn) (.driver (.openFile path)) (.ok (some file))
      = ((path, file) :: held, drawn) :=
  Prod.ext (Custody.next_acquired rfl rfl) rfl

theorem lifecycle_next_close (file : File) (answer : Option DriverError)
    : (lifecycle distinct).next (held, drawn) (.driver (.fileClose file)) answer
      = (held.filter fun entry => entry.2 ≠ file, drawn) :=
  Prod.ext (Custody.next_released rfl rfl) rfl

theorem lifecycle_next_draw (bytes : Vector UInt8 handleBytes)
    : (lifecycle distinct).next (held, drawn) .randRead (.ok bytes)
      = (held, hexEncode bytes.toList :: drawn) :=
  Prod.ext (Custody.next_idle rfl rfl) rfl

/-- A call that works on no file may be made in any state. -/
theorem lifecycle_allowed_idle {effect : Effect} (uses : fileCustody.uses effect = [])
    (closes : fileCustody.releases effect = none)
    : (lifecycle distinct).allowed (held, drawn) effect := by
  refine ⟨⟨fun key used => ?_, fun key released => ?_⟩, trivial⟩
  · rw [uses] at used
    exact (List.not_mem_nil used).elim
  · rw [closes] at released
    cases released

/-- Locks are no business of the account. -/
theorem wp_withLock {post : List (Bytes × File) × List Bytes → α → Prop} {body : Prog α}
    {acquire release : LockOp} {state : List (Bytes × File) × List Bytes}
    (body_ok : (lifecycle distinct).wp body post state)
    : (lifecycle distinct).wp (withLock acquire release body) post state := by
  refine ⟨lifecycle_allowed_idle rfl rfl, fun answer _ => ?_⟩
  rw [lifecycle_next_idle rfl rfl rfl, Monitor.wp_bind]
  refine Monitor.wp_mono body_ok fun later value holds => ?_
  refine ⟨lifecycle_allowed_idle rfl rfl, fun answer _ => ?_⟩
  rw [lifecycle_next_idle rfl rfl rfl]
  exact holds

/-- A call that brings, closes, uses and draws nothing. -/
theorem wp_idle_call {post : List (Bytes × File) × List Bytes → α → Prop} {effect : Effect}
    {rest : effect.Answer → Prog α} {state : List (Bytes × File) × List Bytes}
    (brings : ∀ answer, fileCustody.acquires effect answer = none)
    (closes : fileCustody.releases effect = none) (uses : fileCustody.uses effect = [])
    (drawsNone : ∀ answer, (draws distinct).next state.2 effect answer = state.2)
    (later : ∀ answer, (lifecycle distinct).wp (rest answer) post state)
    : (lifecycle distinct).wp (.ask effect .ret >>= rest) post state := by
  refine ⟨lifecycle_allowed_idle uses closes, fun answer _ => ?_⟩
  rw [lifecycle_next_idle (brings answer) closes (drawsNone answer)]
  exact later answer

/-- Closing a file that is held. -/
theorem wp_close {post : List (Bytes × File) × List Bytes → Option DriverError → Prop}
    {file : File} (owned : file ∈ held.map Prod.snd)
    (later : ∀ answer, post (held.filter fun entry => entry.2 ≠ file, drawn) answer)
    : (lifecycle distinct).wp file.close post (held, drawn) := by
  refine ⟨⟨⟨?_, ?_⟩, trivial⟩, fun answer _ => ?_⟩
  · intro key used
    rw [List.mem_singleton.mp used]
    exact owned
  · intro key released
    rw [← Option.some.inj released]
    exact owned
  · have holds := later answer
    rw [← lifecycle_next_close file answer] at holds
    exact holds

/-- Opening a file: what is returned is new, and held from then on. -/
theorem wp_openFile
    {post : List (Bytes × File) × List Bytes → Except DriverError (Option File) → Prop}
    {path : Bytes} (failed : ∀ err, post (held, drawn) (.error err))
    (nothing : post (held, drawn) (.ok none))
    (opened : ∀ file, file ∉ held.map Prod.snd
      → post ((path, file) :: held, drawn) (.ok (some file)))
    : (lifecycle distinct).wp (Fsys.openFile path) post (held, drawn) := by
  refine ⟨lifecycle_allowed_idle rfl rfl, ?_⟩
  intro answer legal
  rcases answer with err | _ | file
  · rw [lifecycle_next_idle rfl rfl rfl]
    exact failed err
  · rw [lifecycle_next_idle rfl rfl rfl]
    exact nothing
  · have holds := opened file (legal.1 (path, file) rfl)
    rw [← lifecycle_next_open path file] at holds
    exact holds

/-- Storing a handle: its file is held, or it has none. -/
theorem wp_add {post : List (Bytes × File) × List Bytes
      → Except DriverError (Bytes × Handles) → Prop} {t : Handles} {h : OpenFile}
    (balanced : Balanced distinct held (h :: t.openFiles)) (tokens : ∀ tok ∈ t, tok ∈ drawn)
    (failed : ∀ err, post (held, drawn) (.error err))
    (stored : ∀ state tok later, Accounted distinct state later
      → post state (.ok (tok, later)))
    : (lifecycle distinct).wp (t.add h) post (held, drawn) := by
  refine ⟨lifecycle_allowed_idle rfl rfl, ?_⟩
  intro answer legal
  rcases answer with err | bytes
  · rw [lifecycle_next_idle rfl rfl rfl]
    exact failed err
  · rw [lifecycle_next_draw]
    exact stored _ _ _ (accounted_insert balanced tokens legal.2)

/-- Closing the file of a handle. -/
theorem wp_closeFile {h : OpenFile} {handles : List OpenFile}
    (balanced : Balanced distinct held (h :: handles))
    : (lifecycle distinct).wp h.closeFile
        (fun state _ => Balanced distinct state.1 handles ∧ state.2 = drawn)
        (held, drawn) := by
  unfold OpenFile.closeFile
  split
  · rename_i file keeps
    obtain ⟨owned, rest⟩ := balanced.closed keeps
    exact wp_close owned fun _ => ⟨rest, rfl⟩
  · rename_i noFile
    exact ⟨(Balanced.without_iff noFile).mp balanced, rfl⟩

end Rules

section Handlers

variable {distinct : Bool} {held : List (Bytes × File)} {drawn : List Bytes} {t : Handles}

/-- A handle whose file is already held is stored, or its file is closed again. -/
theorem wp_registerHandle (id : UInt32) {h : OpenFile}
    (balanced : Balanced distinct held (h :: t.openFiles)) (tokens : ∀ tok ∈ t, tok ∈ drawn)
    : (lifecycle distinct).wp (registerHandle t id h)
        (fun state result => Accounted distinct state result.2) (held, drawn) := by
  unfold registerHandle
  rw [Monitor.wp_bind]
  refine wp_add balanced tokens ?_ ?_
  · intro err
    dsimp only
    rw [Monitor.wp_bind]
    refine Monitor.wp_mono (wp_closeFile balanced) ?_
    intro state _ held
    obtain ⟨rest, same⟩ := held
    exact ⟨rest, fun tok member => same ▸ tokens tok member⟩
  · exact fun state tok later accounted => accounted

theorem wp_finishOpen (srv : Server) (id : UInt32) (path : Bytes) (write : Bool)
    (accounted : Accounted distinct (held, drawn) t)
    : (lifecycle distinct).wp (finishOpen srv t id path write)
        (fun state result => Accounted distinct state result.2) (held, drawn) := by
  have stored {h : OpenFile} (noFile : h.file = none)
      : (lifecycle distinct).wp (registerHandle t id h)
        (fun state result => Accounted distinct state result.2) (held, drawn) :=
    wp_registerHandle id ((Balanced.without_iff noFile).mpr accounted.balanced)
      accounted.tokens
  unfold finishOpen
  split
  · exact stored rfl
  rw [Monitor.wp_bind]
  refine wp_openFile (fun _ => accounted) accounted ?_
  intro file fresh
  dsimp only
  split
  · exact wp_registerHandle id (accounted.balanced.opened rfl rfl fresh) accounted.tokens
  split
  · exact wp_registerHandle id (accounted.balanced.opened rfl rfl fresh) accounted.tokens
  -- The file was just opened, so that closing it leaves exactly what was held before.
  rw [Monitor.wp_bind]
  refine wp_close List.mem_cons_self ?_
  have again : ((path, file) :: held).filter (fun entry => entry.2 ≠ file) = held := by
    rw [List.filter_cons_of_neg (by simp), List.filter_eq_self]
    intro entry member
    have apart : entry.2 ≠ file := fun same => fresh (same ▸ List.mem_map_of_mem member)
    simpa using apart
  rw [again]
  intro answer
  rcases answer with _ | err
  · exact stored rfl
  · exact accounted

theorem wp_openForWrite (srv : Server) (m : OpenRequest) (path : Bytes) (st : Option Stat)
    (statErr : Option DriverError) (accounted : Accounted distinct (held, drawn) t)
    : (lifecycle distinct).wp (openForWrite srv t m path st statErr)
        (fun state result => Accounted distinct state result.2) (held, drawn) := by
  unfold openForWrite
  split
  · exact accounted
  split
  · exact accounted
  split
  · refine wp_idle_call (fun _ => rfl) rfl rfl (fun _ => rfl) ?_
    intro answer
    rcases answer with _ | err
    · exact wp_finishOpen srv m.id path true accounted
    · exact accounted
  · exact wp_finishOpen srv m.id path true accounted

theorem wp_opOpen (srv : Server) (m : OpenRequest)
    (accounted : Accounted distinct (held, drawn) t)
    : (lifecycle distinct).wp (opOpen srv t m)
        (fun state result => Accounted distinct state result.2) (held, drawn) := by
  have stated (path : Bytes) (st : Option Stat) (statErr : Option DriverError)
      : (lifecycle distinct).wp (openStated srv t m path st statErr)
        (fun state result => Accounted distinct state result.2) (held, drawn) := by
    unfold openStated
    split
    · exact accounted
    split
    · exact wp_openForWrite srv m path st statErr accounted
    split
    · exact accounted
    · exact wp_finishOpen srv m.id path false accounted
  unfold opOpen
  split
  · exact accounted
  rename_i path _
  split
  · exact accounted
  split
  · exact accounted
  refine wp_withLock (wp_idle_call (fun _ => rfl) rfl rfl (fun _ => rfl) ?_)
  intro answer
  rcases answer with err | st
  · exact stated path none (some err)
  · exact stated path st none

theorem wp_opOpendir (m : PathRequest) (accounted : Accounted distinct (held, drawn) t)
    : (lifecycle distinct).wp (opOpendir t m)
        (fun state result => Accounted distinct state result.2) (held, drawn) := by
  unfold opOpendir
  split
  · exact accounted
  rename_i path _
  split
  · exact accounted
  refine wp_withLock (wp_idle_call (fun _ => rfl) rfl rfl (fun _ => rfl) ?_)
  intro answer
  rcases answer with err | _ | st
  · exact accounted
  · exact accounted
  dsimp only
  split
  · exact accounted
  refine wp_idle_call (fun _ => rfl) rfl rfl (fun _ => rfl) ?_
  intro answer
  rcases answer with err | entries
  · exact accounted
  dsimp only
  rw [Monitor.wp_bind]
  refine wp_add ((Balanced.without_iff rfl).mpr accounted.balanced) accounted.tokens ?_ ?_
  · exact fun err => accounted
  · exact fun state tok later stored => stored

/-- What the table refers to is held. -/
theorem Accounted.held_of_mem {state : List (Bytes × File) × List Bytes} {file : File}
    (accounted : Accounted distinct state t) (member : file ∈ t.files)
    : file ∈ state.1.map Prod.snd := by
  obtain ⟨h, within, keeps⟩ := List.mem_filterMap.mp member
  have owned : (h.path, file) ∈ Handles.owned t.openFiles :=
    List.mem_filterMap.mpr ⟨h, within, by rw [keeps]; rfl⟩
  exact List.mem_map.mpr ⟨_, accounted.balanced.owns.subset owned, rfl⟩

/-- A steady effect on files the table refers to leaves the account alone. -/
theorem Accounted.idle {srv : Server} {paths : Bytes → Prop}
    {state : List (Bytes × File) × List Bytes} (accounted : Accounted distinct state t)
    {effect : Effect} (steady : Steady srv paths (· ∈ t.files) effect)
    : (lifecycle distinct).allowed state effect
      ∧ ∀ answer, (lifecycle distinct).next state effect answer = state := by
  cases effect with
  | lock op =>
      exact ⟨lifecycle_allowed_idle rfl rfl, fun _ => lifecycle_next_idle rfl rfl rfl⟩
  | randRead => exact steady.elim
  | driver call =>
      obtain ⟨isSteady, within⟩ := steady
      have closes : fileCustody.releases (.driver call) = none := by
        cases call <;> first | rfl | cases isSteady
      have brings (answer : call.Answer)
          : fileCustody.acquires (.driver call) answer = none := by
        cases call <;> first | rfl | cases isSteady
      refine ⟨⟨⟨?_, ?_⟩, trivial⟩, fun answer => ?_⟩
      · exact fun file used => accounted.held_of_mem (within.files file used)
      · simp [closes]
      · exact lifecycle_next_idle (brings answer) closes rfl

/-- A program of steady effects, and what it returns. -/
theorem Accounted.wp_steady {α : Type} {srv : Server} {paths : Bytes → Prop}
    {state : List (Bytes × File) × List Bytes} {program : Prog α} {Q : α → Prop}
    (accounted : Accounted distinct state t)
    (asks : program.Asks (Steady srv paths (· ∈ t.files)) Q)
    : (lifecycle distinct).wp program (fun later value => later = state ∧ Q value) state :=
  Monitor.wp_of_asks asks fun _ steady => accounted.idle steady

theorem wp_opClose {srv : Server} (wellFormed : t.WellFormed srv) (m : HandleRequest)
    (accounted : Accounted distinct (held, drawn) t)
    : (lifecycle distinct).wp (opClose t m)
        (fun state result => Accounted distinct state result.2) (held, drawn) := by
  unfold opClose Handles.remove
  cases found : t.lookup m.handle with
  | none => exact accounted
  | some h =>
      have found : t.get m.handle = some h := found
      have synced : h.syncFile.Asks (Steady srv (fun _ => True) (· ∈ t.files)) fun _ => True :=
        syncFile_asks (wellFormed.get found) fun file keeps =>
          Handles.mem_files_of_get found keeps
      have balanced := accounted.balanced.perm (Handles.openFiles_perm_of_get found)
      refine wp_withLock ?_
      simp only [Monitor.wp_bind]
      -- `Sync` works on the file while it is still held; only then is it closed.
      refine Monitor.wp_mono (accounted.wp_steady synced) ?_
      intro state syncErr both
      obtain ⟨rfl, _⟩ := both
      refine Monitor.wp_mono (wp_closeFile balanced) ?_
      intro state closeErr held
      obtain ⟨rest, same⟩ := held
      have later : Accounted distinct state (t.erase m.handle) :=
        ⟨rest, fun tok member => same ▸ accounted.tokens tok (AList.mem_erase.mp member).2⟩
      split
      · exact later
      · exact later

/-- Every dispatched packet keeps the account. -/
theorem wp_dispatch {srv : Server} (wellFormed : t.WellFormed srv)
    (accounted : Accounted distinct (held, drawn) t) (typ : UInt8) (payload : Bytes)
    : (lifecycle distinct).wp (dispatch srv t typ payload)
        (fun state result => Accounted distinct state result.2) (held, drawn) := by
  have within : ∀ path, Canonical path → (fun _ : Bytes => True) path := fun _ _ => trivial
  have contract : Contract srv t (fun _ => True) payload typ (dispatch srv t typ payload) :=
    dispatch_contract within wellFormed fun _ _ _ _ => trivial
  generalize dispatch srv t typ payload = program at contract
  cases contract with
  | steady asks =>
      refine Monitor.wp_mono (accounted.wp_steady asks) ?_
      intro state result held
      obtain ⟨rfl, _, rfl⟩ := held
      exact accounted
  | opens decodes => exact wp_opOpen srv _ accounted
  | closes decodes => exact wp_opClose wellFormed _ accounted
  | opendirs decodes => exact wp_opOpendir _ accounted
  | readdirs decodes =>
      refine Monitor.wp_mono (accounted.wp_steady (opReaddir_asks within wellFormed _)) ?_
      intro state result held
      obtain ⟨rfl, _, _, owned, keys⟩ := held
      exact ⟨⟨accounted.balanced.apart, owned.subperm.trans accounted.balanced.owns,
        fun exactly => owned.trans (accounted.balanced.only exactly)⟩,
        fun tok member => accounted.tokens tok (keys tok member)⟩

/-- Closing all handles, by induction on the order they are closed in. -/
theorem wp_closeAll {order : List OpenFile} (balanced : Balanced distinct held order)
    : (lifecycle distinct).wp (closeAll order)
        (fun state _ => Balanced distinct state.1 []) (held, drawn) := by
  induction order generalizing held with
  | nil => exact balanced
  | cons h rest ih =>
      unfold closeAll
      simp only [Monitor.wp_bind]
      refine Monitor.wp_mono (wp_closeFile balanced) ?_
      intro state err held
      obtain ⟨left, _⟩ := state
      obtain ⟨later, rfl⟩ := held
      exact Monitor.wp_mono (ih later) fun _ _ done => done

end Handlers

/-- The account of a session: its table's, or what is left to do settles it. -/
def Phase.Tracked (distinct : Bool) (state : List (Bytes × File) × List Bytes) (t : Handles)
    : Phase → Prop
  | .negotiating | .serving | .draining => Accounted distinct state t
  | .answering _ _ rest =>
      (lifecycle distinct).wp rest (fun state result => Accounted distinct state result.2) state
  | .closing rest =>
      (lifecycle distinct).wp rest (fun state _ => Balanced distinct state.1 []) state
  | .returned => Balanced distinct state.1 []

section Sessions

variable {distinct : Bool} {srv : Server} {state : List (Bytes × File) × List Bytes}

/-- While requests are in flight the account is the table's. -/
theorem Phase.Tracked.accounted {phase : Phase} {flights : List Flight} {t : Handles}
    {paths : Bytes → Prop} (tracked : phase.Tracked distinct state t)
    (safe : phase.Safe srv paths flights) (flying : flights ≠ [])
    : Accounted distinct state t := by
  rcases safe.idle flying with rfl | rfl | rfl <;> exact tracked

/-- Accounting for the table is all that an idle phase asks for. -/
theorem Phase.Tracked.of_flying {phase : Phase} {flights : List Flight} {t : Handles}
    {paths : Bytes → Prop} (safe : phase.Safe srv paths flights) (flying : flights ≠ [])
    (accounted : Accounted distinct state t)
    : phase.Tracked distinct state t := by
  rcases safe.idle flying with rfl | rfl | rfl <;> exact accounted

/-- A step makes allowed calls only and keeps the account. -/
theorem Session.Step.tracked {s later : Session} {trace : List Observation}
    (step : Session.Step srv s trace later) (safe : s.Safe srv fun _ => True)
    (tracked : s.phase.Tracked distinct state s.handles)
    (legal : (lifecycle distinct).Legal state (effects trace))
    : (lifecycle distinct).Allowed state (effects trace)
      ∧ later.phase.Tracked distinct ((lifecycle distinct).after state (effects trace))
          later.handles := by
  have working := safe.phase
  cases step with
  | negotiated phase accepted =>
      rw [phase] at tracked
      exact ⟨trivial, tracked⟩
  | refused phase =>
      rw [phase] at tracked
      exact ⟨trivial, tracked⟩
  | started phase prepared => exact ⟨trivial, tracked⟩
  | early phase alone prepared => exact ⟨trivial, tracked⟩
  | dispatched phase alone prepared =>
      rw [phase] at tracked
      exact ⟨trivial, wp_dispatch safe.table tracked _ _⟩
  | advanced answer phase =>
      rw [phase] at tracked
      exact ⟨⟨tracked.1, trivial⟩, tracked.2 answer legal.1⟩
  | answered phase =>
      rw [phase] at tracked
      exact ⟨trivial, tracked⟩
  | @flew before after flight effect next answer inFlight asks =>
      -- A flight only uses files of the table, and the table is all there is to account.
      have flying : s.flights ≠ [] := by simp [inFlight]
      have contract := safe.flights flight (by simp [inFlight])
      rw [asks] at contract
      have accounted := tracked.accounted working flying
      obtain ⟨allowed, unchanged⟩ := accounted.idle contract.1
      refine ⟨⟨allowed, trivial⟩, ?_⟩
      have same : (lifecycle distinct).after state (effects [.event ⟨effect, answer⟩]) = state :=
        unchanged answer
      rw [same]
      exact .of_flying working flying accounted
  | @landed before after flight reply inFlight returns =>
      have flying : s.flights ≠ [] := by simp [inFlight]
      exact ⟨trivial, .of_flying working flying (tracked.accounted working flying)⟩
  | hungUp phase =>
      rw [phase] at tracked
      exact ⟨trivial, tracked⟩
  | drained phase alone all =>
      rw [phase] at tracked
      exact ⟨trivial, wp_closeAll (tracked.balanced.perm all.symm)⟩
  | closed answer phase =>
      rw [phase] at tracked
      exact ⟨⟨tracked.1, trivial⟩, tracked.2 answer legal.1⟩
  | returned phase =>
      rw [phase] at tracked
      exact ⟨trivial, tracked⟩

/-- A run makes allowed calls only and keeps the account, by induction on its steps. -/
theorem Session.Run.tracked {s : Session} {trace : List Observation}
    (run : Session.Run srv Session.initial trace s)
    (legal : (lifecycle distinct).Legal ([], []) (effects trace))
    : (lifecycle distinct).Allowed ([], []) (effects trace)
      ∧ s.phase.Tracked distinct ((lifecycle distinct).after ([], []) (effects trace))
          s.handles := by
  induction run with
  | refl =>
      exact ⟨trivial, accounted_initial⟩
  | @step middle last early late before step ih =>
      rw [effects_append, Monitor.legal_append] at legal
      obtain ⟨allowed, tracked⟩ := ih legal.1
      have safe := (before.safe (fun _ _ => trivial) (receives_any srv early)).1
      obtain ⟨next, later⟩ := step.tracked safe tracked legal.2
      rw [effects_append, Monitor.allowed_append, Monitor.after_append]
      exact ⟨⟨allowed, next⟩, later⟩

end Sessions

/-- The tokens a trace draws, in order. -/
def tokensOf (events : List Event) : List Bytes :=
  events.filterMap fun
    | ⟨.randRead, .ok bytes⟩ => some (hexEncode bytes.toList)
    | _ => none

/-- Tokens that are all different are legal draws, by induction on the trace. -/
theorem draws_legal {events : List Event} {drawn : List Bytes}
    (distinct : (tokensOf events ++ drawn).Nodup)
    : (draws true).Legal drawn events := by
  induction events generalizing drawn with
  | nil => trivial
  | cons event rest ih =>
      rcases event with ⟨effect, answer⟩
      cases effect with
      | driver call => exact ⟨trivial, ih distinct⟩
      | lock op => exact ⟨trivial, ih distinct⟩
      | randRead =>
          rcases answer with err | bytes
          · exact ⟨trivial, ih distinct⟩
          · have fresh := List.nodup_cons.mp distinct
            refine ⟨fun _ member => fresh.1 (List.mem_append_right _ member), ih ?_⟩
            exact List.perm_middle.nodup_iff.mpr distinct

/-- Every file a session is given is closed exactly once before the session returns, and
no call works on it after that: for a driver that returns a new file each time and tokens
that are all different.
-/
theorem files_closed_once {srv : Server} {s : Session} {trace : List Observation}
    (run : Session.Run srv Session.initial trace s) (done : s.phase = .returned)
    (files : ((fileCustody.acquired (effects trace)).map Prod.snd).Nodup)
    (tokens : (tokensOf (effects trace)).Nodup)
    : ∀ opened ∈ fileCustody.acquired (effects trace),
        (fileCustody.released (effects trace)).count opened.2 = 1
        ∧ ∀ before closing after,
            effects trace = before ++ closing :: after
            → closing.question = .driver (.fileClose opened.2)
            → ∀ later ∈ after, ∀ call,
                later.question = .driver call → opened.2 ∉ call.files := by
  intro opened member
  have legal : (lifecycle true).Legal ([], []) (effects trace) :=
    Monitor.legal_both.mpr
      ⟨Custody.legal_of_nodup files, draws_legal (by simpa using tokens)⟩
  obtain ⟨allowed, tracked⟩ := run.tracked legal
  rw [done, lifecycle, Monitor.after_both] at tracked
  have nothing : fileCustody.monitor.after [] (effects trace) = [] :=
    List.nil_perm.mp (tracked.only rfl)
  obtain ⟨once, unused⟩ :=
    Custody.released_once files (Monitor.allowed_both.mp allowed).1 nothing member
  refine ⟨once, ?_⟩
  intro before closing after whole closes later within call asked
  have releases : fileCustody.releases closing.question = some opened.2 := by
    rw [closes]
    rfl
  have free := unused before closing after whole releases later within
  rw [asked] at free
  exact free

/-- A session that opens a file and ends. -/
theorem Session.Run.readingOnce
    : ∃ calls s,
        Session.Run readOnlyServer Session.initial
          (.received fxpOpen openForReading :: calls) s
        ∧ s.phase = .returned
        ∧ (fileCustody.acquired (effects calls)).length = 1
        ∧ (tokensOf (effects calls)).length = 1 := by
  have opened := (Session.Run.negotiating readOnlyServer).trans
    (.dispatching fxpOpen openForReading rfl rfl rfl
      (Interaction.interpret_runs (fun (_ : Unit) _ => (default, ())) () _))
  have ended := opened.trans (.hangingUp rfl rfl
    (Interaction.interpret_runs (fun (_ : Unit) _ => (default, ())) () _))
  exact ⟨_, _, ended, rfl, rfl, rfl⟩

theorem files_closed_once_reading
    : ∃ trace s opened,
        Session.Run readOnlyServer Session.initial trace s
        ∧ s.phase = .returned
        ∧ opened ∈ fileCustody.acquired (effects trace)
        ∧ (fileCustody.released (effects trace)).count opened.2 = 1 := by
  obtain ⟨calls, s, run, done, files, tokens⟩ := Session.Run.readingOnce
  obtain ⟨opened, one⟩ := List.length_eq_one_iff.mp files
  obtain ⟨tok, token⟩ := List.length_eq_one_iff.mp tokens
  have same : effects (.received fxpOpen openForReading :: calls) = effects calls := rfl
  have closed := files_closed_once run done (by simp [same, one]) (by simp [same, token])
  rw [same] at closed
  exact ⟨_, s, opened, run, done, by simp [same, one], (closed opened (by simp [one])).1⟩

end SftpServer.Sftp
