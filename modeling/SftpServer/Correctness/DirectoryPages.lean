import SftpServer.Correctness.FileLifecycle
import SftpServer.Correctness.OpenEffects
import SftpServer.Correctness.Registration

/-! A directory from OPENDIR to the end of its listing. Each READDIR takes up the listing where
the one before it stopped, so the pages together are the listing, less what cannot be named
or stated. Other requests may come between: they leave the handle as it is.
-/

namespace SftpServer.Sftp

open SftpServer.Foundations
open SftpServer.Wire

-----------------------------------------------------------------------------------------
-- What a listing shows
-----------------------------------------------------------------------------------------

/-- The item of an entry with these attributes. -/
def statedItem (srv : Server) (e : DirEntry) (st : Stat) : NameItem where
  filename := e.name
  longname := longName e.name (srv.attrsFromStat st)
  attrs := srv.attrsFromStat st

/-- What is to be seen of the entries of `dir`, in their order and as often as they occur: an
entry whose name `join` accepts is stated, and one that is found is shown.
-/
inductive Listed (srv : Server) (dir : Bytes)
    : List DirEntry → List Event → List NameItem → Prop where
  | nil : Listed srv dir [] [] []
  | unnamed {e : DirEntry} {entries : List DirEntry} {stats : List Event}
    {items : List NameItem} (refused : join dir e.name = none)
    (later : Listed srv dir entries stats items)
    : Listed srv dir (e :: entries) stats items
  | shown {e : DirEntry} {entries : List DirEntry} {stats : List Event}
    {items : List NameItem} {full : Bytes} {st : Stat} (named : join dir e.name = some full)
    (later : Listed srv dir entries stats items)
    : Listed srv dir (e :: entries) (⟨.driver (.stat full), .ok (some st)⟩ :: stats)
        (statedItem srv e st :: items)
  | absent {e : DirEntry} {entries : List DirEntry} {stats : List Event}
    {items : List NameItem} {full : Bytes} (named : join dir e.name = some full)
    (later : Listed srv dir entries stats items)
    : Listed srv dir (e :: entries) (⟨.driver (.stat full), .ok none⟩ :: stats) items
  | failed {e : DirEntry} {entries : List DirEntry} {stats : List Event}
    {items : List NameItem} {full : Bytes} {err : DriverError}
    (named : join dir e.name = some full) (later : Listed srv dir entries stats items)
    : Listed srv dir (e :: entries) (⟨.driver (.stat full), .error err⟩ :: stats) items

section Listing

variable {srv : Server} {dir : Bytes}

/-- By induction on the first part. -/
theorem Listed.append {first second : List DirEntry} {early late : List Event}
    {items others : List NameItem} (before : Listed srv dir first early items)
    (after : Listed srv dir second late others)
    : Listed srv dir (first ++ second) (early ++ late) (items ++ others) := by
  induction before with
  | nil => exact after
  | unnamed refused _ ih => exact .unnamed refused ih
  | shown named _ ih => exact .shown named ih
  | absent named _ ih => exact .absent named ih
  | failed named _ ih => exact .failed named ih

/-- An entry is looked up once, if it can be named. -/
theorem readdirItem_listed {e : DirEntry} {stats : List Event} {item : Option NameItem}
    (run : (readdirItem srv dir e).Runs stats item)
    : Listed srv dir [e] stats item.toList := by
  unfold readdirItem at run
  split at run
  · rename_i refused
    obtain ⟨rfl, rfl⟩ := Interaction.runs_ret_iff.mp run
    exact .unnamed refused .nil
  · rename_i full named
    obtain ⟨answer, rest, rfl, after⟩ := Interaction.runs_call_iff.mp run
    rcases answer with err | none | st
    · obtain ⟨rfl, rfl⟩ := Interaction.runs_ret_iff.mp after
      exact .failed named .nil
    · obtain ⟨rfl, rfl⟩ := Interaction.runs_ret_iff.mp after
      exact .absent named .nil
    · obtain ⟨rfl, rfl⟩ := Interaction.runs_ret_iff.mp after
      exact .shown named .nil

/-- By induction on the batch. -/
theorem readdirItems_listed {batch : List DirEntry} {stats : List Event}
    {items : List NameItem} (run : (readdirItems srv dir batch).Runs stats items)
    : Listed srv dir batch stats items := by
  induction batch generalizing stats items with
  | nil =>
      obtain ⟨rfl, rfl⟩ := Interaction.runs_ret_iff.mp run
      exact .nil
  | cons e rest ih =>
      obtain ⟨early, late, item, rfl, first, after⟩ := Interaction.Runs.bind_split run
      obtain ⟨middle, last, others, rfl, second, done⟩ := Interaction.Runs.bind_split after
      obtain ⟨rfl, rfl⟩ := Interaction.runs_ret_iff.mp done
      rw [List.append_nil]
      exact (readdirItem_listed first).append (ih second)

/-- How many batches there are in so many entries. -/
def batches (n : Nat) : Nat := (n + readdirBatch - 1) / readdirBatch

/-- What one READDIR makes of the entries that are left: a page of the first of them, with one
batch less to go, or no page and nothing left.
-/
structure TakesPage (srv : Server) (dir : Bytes) (left : List DirEntry) (stats : List Event)
    (items : List NameItem) (rest : List DirEntry) : Prop where
  shows : ∃ chunk, left = chunk ++ rest ∧ Listed srv dir chunk stats items
  progress : items ≠ [] → batches rest.length + 1 ≤ batches left.length
  finished : items = [] → rest = []

/-- By induction along the loop's own recursion: a batch that shows nothing is passed over. -/
theorem readdirLoop_takesPage (entries : List DirEntry) (pos : Nat)
    : ∀ stats items stop, (readdirLoop srv dir entries pos).Runs stats (items, stop)
        → TakesPage srv dir (entries.drop pos) stats items (entries.drop stop) := by
  induction pos using readdirLoop.induct entries with
  | case1 pos more next ih =>
      intro stats items stop run
      rw [readdirLoop, dif_pos more] at run
      obtain ⟨early, late, batch, rfl, first, after⟩ := Interaction.Runs.bind_split run
      have listed := readdirItems_listed first
      have parts : entries.drop pos
          = (entries.drop pos).take (next - pos) ++ entries.drop next := by
        have onwards : entries.drop next = (entries.drop pos).drop (next - pos) := by
          rw [List.drop_drop]
          congr 1
          simp only [next]
          omega
        rw [onwards, List.take_append_drop]
      have fewer : batches (entries.drop next).length + 1 ≤ batches (entries.drop pos).length := by
        simp only [batches, List.length_drop, next, readdirBatch]
        omega
      split at after
      · rename_i empty
        obtain ⟨⟨chunk, left, later⟩, progress, finished⟩ := ih _ _ _ after
        rw [List.isEmpty_iff.mp empty] at listed
        refine ⟨⟨_, ?_, listed.append later⟩, fun some => ?_, finished⟩
        · rw [List.append_assoc, ← left]
          exact parts
        · have less := progress some
          omega
      · rename_i some
        obtain ⟨rfl, same⟩ := Interaction.runs_ret_iff.mp after
        cases same
        rw [List.append_nil]
        exact ⟨⟨_, parts, listed⟩, fun _ => fewer, fun empty => absurd (by simp [empty]) some⟩
  | case2 pos done =>
      intro stats items stop run
      have nothing : entries.drop pos = [] := List.drop_eq_nil_of_le (Nat.not_lt.mp done)
      rw [readdirLoop, dif_neg done] at run
      obtain ⟨rfl, same⟩ := Interaction.runs_ret_iff.mp run
      cases same
      exact ⟨⟨[], rfl, .nil⟩, fun some => absurd rfl some, fun _ => nothing⟩

end Listing

-----------------------------------------------------------------------------------------
-- One request
-----------------------------------------------------------------------------------------

/-- A READDIR on a directory takes its page in one shared section, and its reply is the page or
the end of the listing.
-/
theorem opReaddir_takesPage {srv : Server} {t later : Handles} {m : HandleRequest}
    {h : OpenFile} {calls : List Event} {reply : Message} (found : t.get m.handle = some h)
    (directory : h.dir = true) (run : (opReaddir srv t m).Runs calls (reply, later))
    : ∃ stats items stop,
        calls = ⟨.lock .lockPath, ()⟩ :: stats ++ [⟨.lock .unlockPath, ()⟩]
        ∧ TakesPage srv h.path (h.entries.drop h.pos) stats items (h.entries.drop stop)
        ∧ later.get m.handle = some { h with pos := stop }
        ∧ reply = if items = [] then status m.id statusEOF []
            else .nameReply { id := m.id, items } := by
  unfold opReaddir at run
  rw [found] at run
  dsimp only at run
  rw [if_neg (by simp [directory])] at run
  obtain ⟨inner, rfl, inside⟩ := runs_withLock run
  obtain ⟨stats, late, taken, rfl, looped, replied⟩ := Interaction.Runs.bind_split inside
  obtain ⟨items, stop⟩ := taken
  have page := readdirLoop_takesPage _ _ _ _ _ looped
  dsimp only at replied
  split at replied
  · rename_i empty
    obtain ⟨rfl, result⟩ := Interaction.runs_ret_iff.mp replied
    cases result
    have none : items = [] := List.isEmpty_iff.mp empty
    exact ⟨stats, items, stop, by simp, page, AList.lookup_insert t, by rw [if_pos none]⟩
  · rename_i some
    obtain ⟨rfl, result⟩ := Interaction.runs_ret_iff.mp replied
    cases result
    have shown : items ≠ [] := fun none => some (by simp [none])
    exact ⟨stats, items, stop, by simp, page, AList.lookup_insert t, by rw [if_neg shown]⟩

/-- OPENDIR is refused, or stores what it was given for the directory it names, from its start. It
lists nothing else.
-/
theorem opOpendir_lists {t later : Handles} {m : PathRequest} {calls : List Event}
    {reply : Message} (run : (opOpendir t m).Runs calls (reply, later))
    : (later = t ∧ isHandle reply = false)
      ∨ ∃ tok dir entries,
        reply = .handleReply ⟨m.id, tok⟩
        ∧ later = AList.insert tok { path := dir, dir := true, entries } t
        ∧ resolve m.id m.path = .ok dir
        ∧ ⟨.driver (.listDir dir), .ok entries⟩ ∈ calls
        ∧ ∀ other listed, ⟨.driver (.listDir other), .ok listed⟩ ∈ calls
          → other = dir ∧ listed = entries := by
  have refused {bad : Message} {rest : List Event} (noHandle : isHandle bad = false)
      (ended : (Interaction.ret (bad, t) : Prog (Message × Handles)).Runs rest (reply, later))
      : later = t ∧ isHandle reply = false := by
    cases (Interaction.runs_ret_iff.mp ended).2
    exact ⟨rfl, noHandle⟩
  unfold opOpendir at run
  split at run
  · rename_i bad unresolved
    exact .inl (refused (by rw [refusal_of_resolve unresolved]; rfl) run)
  rename_i path resolved
  split at run
  · exact .inl (refused rfl run)
  obtain ⟨inner, rfl, inside⟩ := runs_withLock run
  obtain ⟨answer, rest, rfl, stated⟩ := Interaction.runs_call_iff.mp inside
  rcases answer with err | none | st
  · exact .inl (refused rfl stated)
  · exact .inl (refused rfl stated)
  dsimp only at stated
  split at stated
  · exact .inl (refused rfl stated)
  obtain ⟨answer, last, rfl, listed⟩ := Interaction.runs_call_iff.mp stated
  rcases answer with err | entries
  · exact .inl (refused rfl listed)
  obtain ⟨drawn, nothing, rfl, added⟩ := Interaction.runs_ask_iff.mp listed
  rcases drawn with err | bytes
  · exact .inl (refused rfl added)
  obtain ⟨rfl, result⟩ := Interaction.runs_ret_iff.mp added
  cases result
  refine .inr ⟨_, path, entries, rfl, rfl, resolved, by simp, fun other listed member => ?_⟩
  have same : (⟨.driver (.listDir other), .ok listed⟩ : Event)
      = ⟨.driver (.listDir path), .ok entries⟩ := by
    simpa using member
  cases same
  exact ⟨rfl, rfl⟩

-----------------------------------------------------------------------------------------
-- Requests between
-----------------------------------------------------------------------------------------

/-- The request is one that moves or ends this directory. -/
def Turns (tok : Bytes) (typ : UInt8) (payload : Bytes) : Prop :=
  ∃ m : HandleRequest, m.handle = tok
    ∧ (typ = fxpReaddir ∧ decodeHandle fxpReaddir payload = .ok m
      ∨ typ = fxpClose ∧ decodeHandle fxpClose payload = .ok m)

/-- As long as its token is not drawn again, the program leaves an entry as it is. -/
def KeepsEntry (tok : Bytes) (t : Handles) (program : Prog (Message × Handles)) : Prop :=
  (Monitor.given (Draws (· ≠ tok)) fun _ => True).wp program
    (fun _ result => result.2.get tok = t.get tok) ()

section Between

variable {srv : Server} {tok : Bytes} {t : Handles}

theorem keeping_keepsEntry (op : Prog Message) : KeepsEntry tok t (keeping t op) := by
  rw [KeepsEntry, keeping, Monitor.wp_bind]
  exact Monitor.wp_mono (Monitor.given_of_asks op.asks_true) fun _ _ _ => rfl

theorem Registering.keepsEntry {path : Bytes} {program : Prog (Message × Handles)}
    (registering : Registering (· ≠ tok) path t program)
    : KeepsEntry tok t program :=
  Monitor.wp_mono registering fun _ _ registers => registers.keeps

/-- A path that does not resolve leaves the table alone. -/
theorem opOpen_keepsEntry (m : OpenRequest) : KeepsEntry tok t (opOpen srv t m) := by
  cases resolved : resolve m.id m.path with
  | ok path => exact (opOpen_registers resolved).keepsEntry
  | error bad =>
      rw [opOpen, resolved]
      exact rfl

theorem opOpendir_keepsEntry (m : PathRequest) : KeepsEntry tok t (opOpendir t m) := by
  cases resolved : resolve m.id m.path with
  | ok path => exact (opOpendir_registers resolved).keepsEntry
  | error bad =>
      rw [opOpendir, resolved]
      exact rfl

theorem opClose_keepsEntry {m : HandleRequest} (other : m.handle ≠ tok)
    : KeepsEntry tok t (opClose t m) := by
  refine Monitor.given_of_asks ?_
  unfold opClose
  split
  · exact rfl
  rename_i h later removed
  have kept : later.get tok = t.get tok := by
    rw [Handles.eq_erase_of_remove removed]
    exact AList.lookup_erase_ne (Ne.symm other)
  refine asks_withLock (fun _ => trivial) ?_
  rw [Interaction.asks_bind]
  refine h.syncFile.asks_true.mono (fun _ holds => holds) fun syncErr _ => ?_
  rw [Interaction.asks_bind]
  refine h.closeFile.asks_true.mono (fun _ holds => holds) fun closeErr _ => ?_
  split <;> exact kept

theorem opReaddir_keepsEntry {m : HandleRequest} (other : m.handle ≠ tok)
    : KeepsEntry tok t (opReaddir srv t m) := by
  refine Monitor.given_of_asks ?_
  unfold opReaddir
  split
  · exact rfl
  split
  · exact rfl
  refine asks_withLock (fun _ => trivial) ?_
  rw [Interaction.asks_bind]
  refine (Interaction.asks_true _).mono (fun _ holds => holds) fun taken _ => ?_
  dsimp only
  split <;> exact AList.lookup_insert_ne (Ne.symm other)

/-- Every request but those on the directory itself leaves its entry as it is. -/
theorem answer_keepsEntry {typ : UInt8} {payload : Bytes} (elsewhere : ¬Turns tok typ payload)
    : KeepsEntry tok t (answer srv t typ payload) := by
  have preparation := prepare_preparation srv t typ payload
  unfold answer
  generalize prepare srv t typ payload = outcome at preparation
  cases preparation with
  | refused => exact rfl
  | readsNothing => exact rfl
  | readsAt => exact keeping_keepsEntry _
  | readsWhole => exact keeping_keepsEntry _
  | writesAt => exact keeping_keepsEntry _
  | rewrites => exact keeping_keepsEntry _
  | barrier =>
      dsimp only
      have handler := dispatch_handler srv t typ payload
      generalize dispatch srv t typ payload = program at handler
      cases handler with
      | malformed => exact rfl
      | unsupported => exact rfl
      | opens => exact opOpen_keepsEntry _
      | opendirs => exact opOpendir_keepsEntry _
      | @closes m decodes =>
          exact opClose_keepsEntry fun same => elsewhere ⟨m, same, .inr ⟨rfl, decodes⟩⟩
      | @readdirs m decodes =>
          exact opReaddir_keepsEntry fun same => elsewhere ⟨m, same, .inl ⟨rfl, decodes⟩⟩
      | _ => exact keeping_keepsEntry _

end Between

-----------------------------------------------------------------------------------------
-- Whole listings
-----------------------------------------------------------------------------------------

/-- One READDIR: its request id, what it asked, and its reply. -/
structure Page where
  id : UInt32
  calls : List Event
  reply : Message

namespace Page

def items (page : Page) : List NameItem :=
  match page.reply with
  | .nameReply reply => reply.items
  | _ => []

/-- A NAME with something in it. -/
def IsName (page : Page) : Prop :=
  page.items ≠ [] ∧ page.reply = .nameReply { id := page.id, items := page.items }

/-- The end of the listing. -/
def IsEnd (page : Page) : Prop := page.reply = status page.id statusEOF []

/-- The page shows these entries, as they were when it was made. -/
def Shows (srv : Server) (dir : Bytes) (chunk : List DirEntry) (page : Page) : Prop :=
  ∃ stats,
    page.calls = ⟨.lock .lockPath, ()⟩ :: stats ++ [⟨.lock .unlockPath, ()⟩]
    ∧ Listed srv dir chunk stats page.items

end Page

/-- Requests one after the other, of which those that read this directory make pages. -/
inductive Paging (srv : Server) (tok : Bytes) : Handles → List Page → Handles → Prop where
  | done (t : Handles) : Paging srv tok t [] t
  | page {t middle last : Handles} {payload : Bytes} {m : HandleRequest} {calls : List Event}
    {reply : Message} {pages : List Page} (decodes : decodeHandle fxpReaddir payload = .ok m)
    (same : m.handle = tok) (run : (answer srv t fxpReaddir payload).Runs calls (reply, middle))
    (later : Paging srv tok middle pages last)
    : Paging srv tok t ({ id := m.id, calls, reply } :: pages) last
  | other {t middle last : Handles} {typ : UInt8} {payload : Bytes} {calls : List Event}
    {reply : Message} {pages : List Page} (elsewhere : ¬Turns tok typ payload)
    (fresh : tok ∉ tokensOf calls)
    (run : (answer srv t typ payload).Runs calls (reply, middle))
    (later : Paging srv tok middle pages last)
    : Paging srv tok t pages last

/-- What the pages make of the entries that are left: NAMEs, then nothing but the end; they
show the entries in order, and all of them before the end is sent.
-/
structure Pages (srv : Server) (dir : Bytes) (left : List DirEntry) (pages : List Page)
    : Prop where
  split : ∃ names ends,
    pages = names ++ ends
    ∧ (∀ page ∈ names, page.IsName)
    ∧ (∀ page ∈ ends, page.IsEnd)
    ∧ names.length ≤ batches left.length
  shows : ∃ chunks rest,
    left = chunks.flatten ++ rest
    ∧ List.Forall₂ (Page.Shows srv dir) chunks pages
    ∧ ((∃ page ∈ pages, page.IsEnd) → rest = [])

section Runs

variable {srv : Server} {tok dir : Bytes}

theorem draws_other {calls : List Event} (fresh : tok ∉ tokensOf calls)
    : ∀ event ∈ calls, Draws (· ≠ tok) event.question event.answer := by
  intro event member
  rcases event with ⟨effect, answer⟩
  cases effect with
  | driver call => trivial
  | lock op => trivial
  | randRead =>
      cases answer with
      | error err => trivial
      | ok bytes =>
          intro same
          exact fresh (List.mem_filterMap.mpr ⟨_, member, by simp [same]⟩)

/-- One more page in front. -/
theorem Pages.cons {left rest : List DirEntry} {stats : List Event} {items : List NameItem}
    {id : UInt32} {pages : List Page} (page : TakesPage srv dir left stats items rest)
    (later : Pages srv dir rest pages)
    : Pages srv dir left ({
        id
        calls := ⟨.lock .lockPath, ()⟩ :: stats ++ [⟨.lock .unlockPath, ()⟩]
        reply := if items = [] then status id statusEOF [] else .nameReply { id, items }
      } :: pages) := by
  obtain ⟨⟨chunk, parts, listed⟩, progress, finished⟩ := page
  obtain ⟨⟨names, ends, rfl, allNames, allEnds, few⟩, chunks, last, onwards, shows, complete⟩ :=
    later
  have whole : left = (chunk :: chunks).flatten ++ last := by
    rw [parts, onwards, List.flatten_cons, List.append_assoc]
  by_cases empty : items = []
  · -- Nothing is left, so there are no more NAMEs either.
    have nothing := finished empty
    rw [nothing] at few onwards
    obtain rfl : names = [] := List.eq_nil_of_length_eq_zero (Nat.le_zero.mp few)
    obtain ⟨_, rfl⟩ := List.append_eq_nil_iff.mp onwards.symm
    rw [empty] at listed ⊢
    rw [if_pos rfl]
    refine ⟨⟨[], _ :: ends, rfl, by simp, ?_, Nat.zero_le _⟩, chunk :: chunks, [], whole, ?_, ?_⟩
    · exact List.forall_mem_cons.mpr ⟨rfl, allEnds⟩
    · exact .cons ⟨stats, rfl, listed⟩ shows
    · exact fun _ => rfl
  · rw [if_neg empty]
    refine ⟨⟨_ :: names, ends, rfl, ?_, allEnds, ?_⟩, chunk :: chunks, last, whole, ?_, ?_⟩
    · exact List.forall_mem_cons.mpr ⟨⟨empty, rfl⟩, allNames⟩
    · have less := progress empty
      rw [List.length_cons]
      omega
    · exact .cons ⟨stats, rfl, listed⟩ shows
    · intro ended
      obtain ⟨page, member, is⟩ := ended
      rcases List.mem_cons.mp member with rfl | later
      · cases is
      · exact complete ⟨page, later, is⟩

/-- By induction on the requests: each page takes up what is left. -/
theorem Paging.pages {t last : Handles} {pages : List Page} {h : OpenFile}
    (paging : Paging srv tok t pages last) (found : t.get tok = some h)
    (directory : h.dir = true)
    : Pages srv h.path (h.entries.drop h.pos) pages := by
  induction paging generalizing h with
  | done t =>
      refine ⟨⟨[], [], rfl, by simp, by simp, Nat.zero_le _⟩, [], _, rfl, .nil, ?_⟩
      intro ended
      obtain ⟨page, member, _⟩ := ended
      cases member
  | @page t middle last payload m calls reply pages decodes same run later ih =>
      have dispatched : answer srv t fxpReaddir payload
          = decoded t (requestID payload) (decodeHandle fxpReaddir payload)
              fun m => opReaddir srv t m :=
        rfl
      rw [dispatched, decodes] at run
      rw [← same] at found
      obtain ⟨stats, items, stop, rfl, page, stored, rfl⟩ :=
        opReaddir_takesPage found directory run
      rw [same] at stored
      exact .cons page (ih stored directory)
  | other elsewhere fresh run later ih =>
      have kept := (Monitor.given_runs (answer_keepsEntry elsewhere) run (draws_other fresh)).2
      exact ih (kept.trans found) directory

/-- The pages put together, by induction on them. -/
theorem listed_of_shows {chunks : List (List DirEntry)} {pages : List Page}
    (shows : List.Forall₂ (Page.Shows srv dir) chunks pages)
    : ∃ stats, Listed srv dir chunks.flatten stats (pages.flatMap Page.items) := by
  induction shows with
  | nil => exact ⟨[], .nil⟩
  | cons page _ ih =>
      obtain ⟨early, _, listed⟩ := page
      obtain ⟨late, others⟩ := ih
      exact ⟨early ++ late, listed.append others⟩

end Runs

/-- The pages of a directory are its listing: non-empty NAMEs and then the end for every
further READDIR, after no more NAMEs than there are batches. Once the end is sent, the items
sent before it are what the whole listing shows.
-/
theorem readdir_pages_listing {srv : Server} {t first last : Handles} {payload : Bytes}
    {m : PathRequest} {calls : List Event} {reply : HandleReply} {dir : Bytes}
    {entries : List DirEntry} {pages : List Page}
    (decodes : decodePath fxpOpendir payload = .ok m)
    (opened : (answer srv t fxpOpendir payload).Runs calls (.handleReply reply, first))
    (listing : ⟨.driver (.listDir dir), .ok entries⟩ ∈ calls)
    (paging : Paging srv reply.handle first pages last)
    : Pages srv dir entries pages
      ∧ ((∃ page ∈ pages, page.IsEnd)
        → ∃ stats, Listed srv dir entries stats (pages.flatMap Page.items)) := by
  have dispatched : answer srv t fxpOpendir payload
      = decoded t (requestID payload) (decodePath fxpOpendir payload)
          fun m => opOpendir t m :=
    rfl
  rw [dispatched, decodes] at opened
  have all : Pages srv dir entries pages := by
    rcases opOpendir_lists opened with ⟨_, noHandle⟩ | ⟨tok, _, _, granted, rfl, _, _, only⟩
    · cases noHandle
    cases granted
    obtain ⟨rfl, rfl⟩ := only dir entries listing
    exact paging.pages (AList.lookup_insert t) rfl
  refine ⟨all, fun ended => ?_⟩
  obtain ⟨chunks, rest, parts, shows, complete⟩ := all.shows
  rw [parts, complete ended, List.append_nil]
  exact listed_of_shows shows

/-- OPENDIR of the root. -/
def openRoot : Bytes := [0, 0, 0, 1, 0, 0, 0, 1, 0x2f]

/-- READDIR on the handle that a source of zeros makes. -/
def readRoot : Bytes := [0, 0, 0, 2, 0, 0, 0, 32] ++ zeroToken

/-- The root with these entries, read up to `pos`. -/
def rootListing (entries : List DirEntry) (pos : Nat) : Handles :=
  AList.insert zeroToken { path := [slash], dir := true, entries, pos } ∅

/-- What the OPENDIR asks, and is answered. -/
def openingRoot (entries : List DirEntry) : List Event := [
  ⟨.lock .lockPath, ()⟩,
  ⟨.driver (.stat [slash]), .ok (some { mode := modeDir, size := 0 })⟩,
  ⟨.driver (.listDir [slash]), .ok entries⟩,
  ⟨.randRead, .ok (Vector.replicate handleBytes 0)⟩,
  ⟨.lock .unlockPath, ()⟩]

/-- A file of one byte in the root. -/
def statFile (path : Bytes) : Event :=
  ⟨.driver (.stat path), .ok (some { mode := 0o100644, size := 1 })⟩

def fileItem (name : Bytes) : NameItem :=
  statedItem plainServer ⟨name⟩ { mode := 0o100644, size := 1 }

theorem runs_readRoot {entries : List DirEntry} {pos stop : Nat} {stats : List Event}
    {items : List NameItem}
    (loop : (readdirLoop plainServer [slash] entries pos).Runs stats (items, stop))
    : (answer plainServer (rootListing entries pos) fxpReaddir readRoot).Runs
        (⟨.lock .lockPath, ()⟩ :: (stats ++ [⟨.lock .unlockPath, ()⟩]))
        (if items.isEmpty then status 2 statusEOF [] else .nameReply { id := 2, items },
          rootListing entries stop) := by
  have dispatched : answer plainServer (rootListing entries pos) fxpReaddir readRoot
      = opReaddir plainServer (rootListing entries pos) ⟨fxpReaddir, 2, zeroToken⟩ :=
    rfl
  have found : (rootListing entries pos).get zeroToken
      = some { path := [slash], dir := true, entries, pos } :=
    AList.lookup_insert ∅
  have moved : AList.insert zeroToken
        { path := [slash], dir := true, entries, pos := stop } (rootListing entries pos)
      = rootListing entries stop :=
    AList.insert_insert ∅
  rw [dispatched, opReaddir, found]
  refine .ask (.bind ?_ (.ask (.ret _)))
  rw [← List.append_nil stats]
  refine loop.bind ?_
  dsimp only
  rw [moved]
  split
  · exact .ret _
  · exact .ret _

/-- `a`, as often as it goes into one batch, and then `b` and `c`. -/
def twoBatches : List DirEntry :=
  List.replicate readdirBatch ⟨text "a"⟩ ++ [⟨text "b"⟩, ⟨text "c"⟩]

/-- The pages of two batches where `b` cannot be stated: the first batch, `c`, and the end. -/
def batchPages : List Page := [
  {
    id := 2
    calls := ⟨.lock .lockPath, ()⟩
      :: (List.replicate readdirBatch (statFile (text "/a")) ++ [⟨.lock .unlockPath, ()⟩])
    reply := .nameReply { id := 2, items := List.replicate readdirBatch (fileItem (text "a")) }
  },
  {
    id := 2
    calls := [⟨.lock .lockPath, ()⟩, ⟨.driver (.stat (text "/b")), .error { message := [] }⟩,
      statFile (text "/c"), ⟨.lock .unlockPath, ()⟩]
    reply := .nameReply { id := 2, items := [fileItem (text "c")] }
  },
  {
    id := 2
    calls := [⟨.lock .lockPath, ()⟩, ⟨.lock .unlockPath, ()⟩]
    reply := status 2 statusEOF []
  }]

/-- One entry over and over, by induction on how often. -/
theorem readdirItems_replicate (n : Nat)
    : (readdirItems plainServer [slash] (List.replicate n ⟨text "a"⟩)).Runs
        (List.replicate n (statFile (text "/a"))) (List.replicate n (fileItem (text "a"))) := by
  induction n with
  | zero => exact .ret _
  | succ n ih =>
      have item : (readdirItem plainServer [slash] ⟨text "a"⟩).Runs [statFile (text "/a")]
          (some (fileItem (text "a"))) :=
        .ask (.ret _)
      have others : (readdirItems plainServer [slash] (List.replicate n ⟨text "a"⟩)
            >>= fun items => pure (fileItem (text "a") :: items)).Runs
          (List.replicate n (statFile (text "/a")) ++ [])
          (fileItem (text "a") :: List.replicate n (fileItem (text "a"))) :=
        ih.bind (.ret _)
      rw [List.append_nil] at others
      exact item.bind others

/-- READDIR three times. -/
theorem paging_twoBatches
    : Paging plainServer zeroToken (rootListing twoBatches 0) batchPages
        (rootListing twoBatches 66) := by
  have first : (readdirLoop plainServer [slash] twoBatches 0).Runs
      (List.replicate readdirBatch (statFile (text "/a")))
      (List.replicate readdirBatch (fileItem (text "a")), 64) := by
    rw [readdirLoop, dif_pos (by decide), ← List.append_nil (List.replicate readdirBatch _)]
    exact (readdirItems_replicate readdirBatch).bind (.ret _)
  have second : (readdirLoop plainServer [slash] twoBatches 64).Runs
      [⟨.driver (.stat (text "/b")), .error { message := [] }⟩, statFile (text "/c")]
      ([fileItem (text "c")], 66) := by
    rw [readdirLoop, dif_pos (by decide)]
    exact .ask (.ask (.ret _))
  have ends : (readdirLoop plainServer [slash] twoBatches 66).Runs [] ([], 66) := by
    rw [readdirLoop, dif_neg (by decide)]
    exact .ret _
  have decodes : decodeHandle fxpReaddir readRoot = .ok ⟨fxpReaddir, 2, zeroToken⟩ := rfl
  exact .page decodes rfl (runs_readRoot first) (.page decodes rfl (runs_readRoot second)
    (.page decodes rfl (runs_readRoot ends) (.done _)))

/-- The entry that cannot be stated is left out, and the others are shown on two pages. -/
theorem readdir_pages_two_batches
    : Pages plainServer [slash] twoBatches batchPages
      ∧ ∃ stats, Listed plainServer [slash] twoBatches stats
        (List.replicate readdirBatch (fileItem (text "a")) ++ [fileItem (text "c")]) := by
  have opened : (answer plainServer ∅ fxpOpendir openRoot).Runs (openingRoot twoBatches)
      (.handleReply ⟨1, zeroToken⟩, rootListing twoBatches 0) :=
    .ask (.ask (.ask (.ask (.ask (.ret _)))))
  have decodes : decodePath fxpOpendir openRoot = .ok ⟨fxpOpendir, 1, [slash]⟩ := rfl
  have listing : ⟨.driver (.listDir [slash]), .ok twoBatches⟩ ∈ openingRoot twoBatches := by
    simp [openingRoot]
  obtain ⟨pages, listed⟩ := readdir_pages_listing decodes opened listing paging_twoBatches
  exact ⟨pages, listed ⟨_, List.mem_of_getLast? rfl, rfl⟩⟩

end SftpServer.Sftp
