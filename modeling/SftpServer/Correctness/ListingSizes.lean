import SftpServer.Correctness.DirectoryPages
import SftpServer.Correctness.ReplySizes

/-! How large the replies to READDIR and READLINK are. A batch of a listing has a bound on its
entries and none on its bytes, and a link target is sent back twice whatever its length, so
both can be too large to frame.
-/

namespace SftpServer.Sftp

open SftpServer.Foundations
open SftpServer.Wire

-----------------------------------------------------------------------------------------
-- The line of an entry
-----------------------------------------------------------------------------------------

theorem length_formatUint_le (n : Nat) {k : Nat} (positive : 0 < k) (small : n < 10 ^ k)
    : (formatUint n).length ≤ k := by
  rw [formatUint, List.length_map]
  exact (Nat.length_toDigits_le_iff (by decide) positive).mpr small

theorem length_formatUint_pos (n : Nat) : 0 < (formatUint n).length := by
  rw [formatUint, List.length_map]
  exact Nat.length_toDigits_pos

theorem length_padTwo (fill : UInt8) {n : Nat} (small : n < 100)
    : (padTwo fill n).length = 2 := by
  have some := length_formatUint_pos n
  simp only [padTwo]
  split
  · rename_i one
    have few := length_formatUint_le n (k := 1) (by decide) (by omega)
    rw [List.length_cons]
    omega
  · rename_i more
    have few := length_formatUint_le n (k := 2) (by decide) (by omega)
    have many : ¬ (formatUint n).length ≤ 1 := by
      rw [formatUint, List.length_map, Nat.length_toDigits_le_iff (by decide) (by decide)]
      omega
    omega

/-- A month has three letters and a day two characters. -/
theorem length_formatTime (seconds : UInt32) : (formatTime seconds).length = 12 := by
  have month : ∀ month < 12, (monthNames.getD month []).length = 3 := by decide
  have named := month (civilDay (seconds.toNat / 86400)).1 (Nat.mod_lt _ (by decide))
  have day : (civilDay (seconds.toNat / 86400)).2 < 100 := by
    simp only [civilDay]
    omega
  have hour : seconds.toNat % 86400 / 60 / 60 < 100 := by omega
  have minute : seconds.toNat % 86400 / 60 % 60 < 100 := by omega
  have blank : (text " ").length = 1 := by decide
  have colon : (text ":").length = 1 := by decide
  simp only [formatTime, List.length_append, named, length_padTwo _ day, length_padTwo _ hour,
    length_padTwo _ minute, blank, colon]

theorem length_setBit (mode : UInt32) (out : Bytes) (pos : Nat) (bit : UInt32)
    (set unset : UInt8)
    : (setBit mode out pos bit set unset).length = out.length := by
  simp only [setBit]
  split_ifs
  · rfl
  · exact List.length_set
  · exact List.length_set

theorem length_modeString (mode : UInt32) : (modeString mode).length = 10 := by
  have letters : (text "rwxrwxrwx").length = 9 := by decide
  simp [modeString, length_setBit, letters]

/-- The line of an entry is its name after 31 characters and the digits of its size. -/
theorem length_longName (srv : Server) (name : Bytes) (st : Stat)
    : (longName name (srv.attrsFromStat st)).length
      = 31 + (formatUint st.size.toNat).length + name.length := by
  have one : (text " 1 ").length = 3 := by decide
  have blank : (text " ").length = 1 := by decide
  have zero : (formatUint (0 : UInt32).toNat).length = 1 := by decide
  have uid : (srv.attrsFromStat st).uid = 0 := rfl
  have gid : (srv.attrsFromStat st).gid = 0 := rfl
  have size : (srv.attrsFromStat st).size = st.size := rfl
  simp only [longName, List.length_append, length_modeString, length_formatTime, one, blank,
    uid, gid, size, zero]
  omega

-----------------------------------------------------------------------------------------
-- What a READDIR shows
-----------------------------------------------------------------------------------------

section Listing

variable {State : Type} (serve : State → (call : DriverCall) → call.Answer × State)

/-- The surroundings of a request that asks nothing but the driver. -/
def serving (s : State) : (effect : Effect) → effect.Answer × State
  | .driver call => serve s call
  | .lock _ => ((), s)
  | .randRead => (.ok (Vector.replicate handleBytes 0), s)

theorem exec_withLock {α : Type} (s : State) (acquire release : LockOp) (body : Prog α)
    : Interaction.exec (serving serve) s (withLock acquire release body)
      = Interaction.exec (serving serve) s body :=
  exec_withLock_of_free (fun _ _ => rfl) s body

/-- What a batch of entries shows: the names that `join` accepts and `Stat` finds. -/
def shown (dir : Bytes) : List DirEntry → State → List (Bytes × Stat) × State
  | [], s => ([], s)
  | e :: rest, s =>
      match join dir e.name with
      | none => shown dir rest s
      | some full =>
          let others := shown dir rest (serve s (.stat full)).2
          match (serve s (.stat full)).1 with
          | .ok (some st) => ((e.name, st) :: others.1, others.2)
          | _ => others

/-- What the next batch that shows anything shows. -/
def nextShown (dir : Bytes) (entries : List DirEntry) (s : State) : List (Bytes × Stat) :=
  if _none : entries = [] then []
  else
    let batch := shown serve dir (entries.take readdirBatch) s
    if batch.1.isEmpty then nextShown dir (entries.drop readdirBatch) batch.2 else batch.1
termination_by entries.length
decreasing_by
  have some : 0 < entries.length := List.length_pos_of_ne_nil _none
  simp only [readdirBatch, List.length_drop]
  omega

/-- The items that entries are sent as. -/
def shownItems (srv : Server) (entries : List (Bytes × Stat)) : List NameItem :=
  entries.map fun entry => statedItem srv ⟨entry.1⟩ entry.2

/-- The items of a batch are those of what it shows, by induction on the batch. -/
theorem exec_readdirItems (srv : Server) (dir : Bytes) (batch : List DirEntry) (s : State)
    : Interaction.exec (serving serve) s (readdirItems srv dir batch)
      = (shownItems srv (shown serve dir batch s).1, (shown serve dir batch s).2) := by
  induction batch generalizing s with
  | nil => rfl
  | cons e rest ih =>
      simp only [readdirItems, Interaction.exec_bind, ih, shown, readdirItem]
      cases join dir e.name with
      | none => rfl
      | some full =>
          have asks : Interaction.exec (serving serve) s (Fsys.stat full)
              = serve s (.stat full) := rfl
          simp only [Interaction.exec_bind, asks]
          rcases (serve s (.stat full)).1 with err | none | st
          · rfl
          · rfl
          · rfl

/-- The loop of READDIR sends what the next batch shows, by induction on its position. -/
theorem exec_readdirLoop (srv : Server) (dir : Bytes) (entries : List DirEntry) (pos : Nat)
    (s : State)
    : (Interaction.exec (serving serve) s (readdirLoop srv dir entries pos)).1.1
      = shownItems srv (nextShown serve dir (entries.drop pos) s) := by
  induction pos using readdirLoop.induct entries generalizing s with
  | case1 pos more stop ih =>
      have left : entries.drop pos ≠ [] := by simpa using more
      -- The batch stops at the end of the listing, where taking and dropping stop too.
      have batch : (entries.drop pos).take (stop - pos)
          = (entries.drop pos).take readdirBatch := by
        apply List.take_eq_take_iff.mpr
        simp only [stop, List.length_drop, readdirBatch]
        omega
      have later : entries.drop stop = (entries.drop pos).drop readdirBatch := by
        rw [List.drop_drop]
        simp only [stop, List.drop_eq_drop_iff]
        omega
      rw [readdirLoop, dif_pos more, nextShown, dif_neg left]
      simp only [Interaction.exec_bind, exec_readdirItems]
      rw [batch, shownItems, List.isEmpty_map]
      cases empty : (shown serve dir ((entries.drop pos).take readdirBatch) s).1.isEmpty with
      | true =>
          simp only [if_true]
          rw [← later]
          exact ih _
      | false => rfl
  | case2 pos done =>
      have nothing : entries.drop pos = [] := List.drop_eq_nil_of_le (Nat.not_lt.mp done)
      rw [readdirLoop, dif_neg done, nextShown, dif_pos nothing]
      rfl

/-- The bytes of the item of an entry: its name twice, its line and its attributes. -/
def entryBytes (entry : Bytes × Stat) : Nat :=
  71 + (formatUint entry.2.size.toNat).length + 2 * entry.1.length

theorem fits_listing_iff (srv : Server) (id : UInt32) (entries : List (Bytes × Stat))
    : Fits (.nameReply { id, items := shownItems srv entries })
      ↔ 9 + (entries.map entryBytes).sum ≤ maxPacket := by
  have items : (shownItems srv entries).map (fun it =>
      8 + it.filename.length + it.longname.length + it.attrs.bytes.length)
      = entries.map entryBytes := by
    rw [shownItems, List.map_map]
    refine List.map_congr_left fun entry _ => ?_
    simp only [Function.comp_apply, statedItem, length_longName, length_attrsFromStat, entryBytes]
    omega
  rw [Fits, length_nameReply, items]
  omega

theorem room_for_no_entry : 9 + (([] : List (Bytes × Stat)).map entryBytes).sum ≤ maxPacket := by
  decide

theorem room_for_no_target : 21 + 2 * ([] : Bytes).length ≤ maxPacket := by
  decide

/-- What a READDIR of a handle shows. -/
def listedBy (t : Handles) (handle : Bytes) (s : State) : List (Bytes × Stat) :=
  match t.get handle with
  | none => []
  | some h => if h.dir then nextShown serve h.path (h.entries.drop h.pos) s else []

theorem opReaddir_fits_iff (srv : Server) (t : Handles) (m : HandleRequest) (s : State)
    : Fits (Interaction.exec (serving serve) s (opReaddir srv t m)).1.1
      ↔ 9 + ((listedBy serve t m.handle s).map entryBytes).sum ≤ maxPacket := by
  unfold opReaddir listedBy
  cases t.get m.handle with
  | none => exact iff_of_true (fits_status _ _ (by decide)) room_for_no_entry
  | some h =>
      cases dir : h.dir with
      | false =>
          simp only [dir, Bool.not_false, Bool.false_eq_true, if_true, if_false]
          exact iff_of_true (fits_status _ _ (by decide)) room_for_no_entry
      | true =>
          simp only [dir, Bool.not_true, Bool.false_eq_true, if_true, if_false, rlocked,
            exec_withLock, Interaction.exec_bind]
          rw [← fits_listing_iff srv m.id, ← exec_readdirLoop]
          generalize (Interaction.exec (serving serve) s
            (readdirLoop srv h.path h.entries h.pos)).1 = batch
          obtain ⟨items, pos⟩ := batch
          cases items with
          | nil =>
              have none := (fits_listing_iff srv m.id []).mpr room_for_no_entry
              exact iff_of_true (fits_status _ _ (by decide)) none
          | cons first rest => rfl

/-- The target that the driver has for the READLINK of a path. -/
def targetOf (m : PathRequest) (s : State) : Bytes :=
  match resolve m.id m.path with
  | .error _ => []
  | .ok path =>
      match (serve s (.readLink path)).1 with
      | .error _ => []
      | .ok target => target

theorem opReadlink_fits_iff (m : PathRequest) (s : State)
    : Fits (Interaction.exec (serving serve) s (opReadlink m)).1
      ↔ 21 + 2 * (targetOf serve m s).length ≤ maxPacket := by
  unfold opReadlink targetOf
  cases resolved : resolve m.id m.path with
  | error bad => exact iff_of_true (fits_resolve resolved) room_for_no_target
  | ok path =>
      have asks : Interaction.exec (serving serve) s (Fsys.readLink path)
          = serve s (.readLink path) := rfl
      simp only [rlocked, exec_withLock, Interaction.exec_bind, asks]
      cases (serve s (.readLink path)).1 with
      | error err => exact iff_of_true (fits_statusErr _ _ _) room_for_no_target
      | ok target => exact fits_echo_iff m.id target

/-- The reply to a request that is answered with nothing beside it. -/
def replyTo (srv : Server) (t : Handles) (typ : UInt8) (payload : Bytes) (s : State) : Message :=
  (Interaction.exec (serving serve) s (answer srv t typ payload)).1.1

/-- What the READDIR of a payload shows. -/
def listed (t : Handles) (payload : Bytes) (s : State) : List (Bytes × Stat) :=
  match decodeHandle fxpReaddir payload with
  | .error _ => []
  | .ok m => listedBy serve t m.handle s

theorem readdir_fits_iff (srv : Server) (t : Handles) (payload : Bytes) (s : State)
    : Fits (replyTo serve srv t fxpReaddir payload s)
      ↔ 9 + ((listed serve t payload s).map entryBytes).sum ≤ maxPacket := by
  have answers : answer srv t fxpReaddir payload
      = decoded t (requestID payload) (decodeHandle fxpReaddir payload) (opReaddir srv t) := rfl
  rw [replyTo, answers, listed]
  cases decodeHandle fxpReaddir payload with
  | error err => exact iff_of_true (fits_errText _ _ _) room_for_no_entry
  | ok m => exact opReaddir_fits_iff serve srv t m s

/-- A batch shows names of its entries, in their order, by induction on the batch. -/
theorem shown_sublist (dir : Bytes) (entries : List DirEntry) (s : State)
    : ((shown serve dir entries s).1.map Prod.fst).Sublist (entries.map DirEntry.name) := by
  induction entries generalizing s with
  | nil => exact .slnil
  | cons e rest ih =>
      simp only [shown]
      cases join dir e.name with
      | none => exact (ih s).cons _
      | some full =>
          simp only
          generalize (serve s (.stat full)).1 = answer
          rcases answer with err | none | st
          · exact (ih _).cons _
          · exact (ih _).cons _
          · exact (ih _).cons_cons _

/-- What is shown next is no more than a batch, by induction on what is left. -/
theorem nextShown_batch (dir : Bytes) (entries : List DirEntry) (s : State)
    : ∃ batch : List DirEntry, batch.Sublist entries ∧ batch.length ≤ readdirBatch
      ∧ ((nextShown serve dir entries s).map Prod.fst).Sublist (batch.map DirEntry.name) := by
  induction entries, s using nextShown.induct serve dir with
  | case1 s =>
      rw [nextShown, dif_pos rfl]
      exact ⟨[], .slnil, Nat.zero_le _, .slnil⟩
  | case2 entries s some batch empty ih =>
      rw [nextShown, dif_neg some]
      simp only [batch] at empty ih
      simp only [empty, if_true]
      obtain ⟨later, within, few, names⟩ := ih
      exact ⟨later, within.trans (List.drop_sublist _ _), few, names⟩
  | case3 entries s some batch shows =>
      rw [nextShown, dif_neg some]
      simp only [batch] at shows
      simp only [shows]
      exact ⟨_, List.take_sublist _ _, List.length_take_le _ _, shown_sublist serve dir _ s⟩

theorem sum_entryBytes_le {entries : List (Bytes × Stat)}
    (short : ∀ entry ∈ entries, entry.1.length ≤ 2034)
    : (entries.map entryBytes).sum ≤ 4159 * entries.length := by
  induction entries with
  | nil => exact Nat.le_refl 0
  | cons entry rest ih =>
      simp only [List.forall_mem_cons] at short
      have others := ih short.2
      have name := short.1
      have size : entry.2.size.toNat < 10 ^ 20 :=
        entry.2.size.toNat_lt.trans (by decide)
      have digits := length_formatUint_le entry.2.size.toNat (by decide) size
      simp only [List.map_cons, List.sum_cons, List.length_cons, entryBytes] at others ⊢
      omega

/-- Names of up to 2034 bytes always fit, whatever the entries are. -/
theorem readdir_fits_of_short {srv : Server} {t : Handles}
    (short : ∀ tok h, t.get tok = some h → ∀ e ∈ h.entries, e.name.length ≤ 2034)
    (payload : Bytes) (s : State)
    : Fits (replyTo serve srv t fxpReaddir payload s) := by
  rw [readdir_fits_iff, listed]
  cases decodeHandle fxpReaddir payload with
  | error err => exact room_for_no_entry
  | ok m =>
      simp only [listedBy]
      cases found : t.get m.handle with
      | none => exact room_for_no_entry
      | some h =>
          simp only
          split
          · obtain ⟨batch, within, few, names⟩ :=
              nextShown_batch serve h.path (h.entries.drop h.pos) s
            have short : ∀ entry ∈ nextShown serve h.path (h.entries.drop h.pos) s,
                entry.1.length ≤ 2034 := by
              intro entry member
              obtain ⟨e, listed, same⟩ :=
                List.mem_map.mp (names.subset (List.mem_map_of_mem member))
              rw [← same]
              exact short _ h found e (List.mem_of_mem_drop (within.subset listed))
            have bytes := sum_entryBytes_le short
            have count := names.length_le
            have limit : maxPacket = 266240 := rfl
            simp only [List.length_map, readdirBatch] at count few
            omega
          · exact room_for_no_entry

/-- The target that the driver has for the READLINK of a payload. -/
def linkTarget (payload : Bytes) (s : State) : Bytes :=
  match decodePath fxpReadlink payload with
  | .error _ => []
  | .ok m => targetOf serve m s

theorem readlink_fits_iff (srv : Server) (t : Handles) (payload : Bytes) (s : State)
    : Fits (replyTo serve srv t fxpReadlink payload s)
      ↔ 21 + 2 * (linkTarget serve payload s).length ≤ maxPacket := by
  have answers : answer srv t fxpReadlink payload
      = decoded t (requestID payload) (decodePath fxpReadlink payload)
          fun m => keeping t (opReadlink m) := rfl
  rw [replyTo, answers, linkTarget]
  cases decodePath fxpReadlink payload with
  | error err => exact iff_of_true (fits_errText _ _ _) room_for_no_target
  | ok m =>
      simp only [decoded, keeping, Interaction.exec_bind]
      exact opReadlink_fits_iff serve m s

/-- Whatever the driver lists and stores: a READDIR is answered exactly when the items of its
batch fit a packet, and a READLINK exactly when its target does, twice.
-/
theorem listing_framed_iff (srv : Server) (t : Handles) (payload : Bytes) (s : State)
    : ((Fits (replyTo serve srv t fxpReaddir payload s)
        ∧ ∀ out, ∃ framed, (frame (replyTo serve srv t fxpReaddir payload s) out).1 = .ok framed)
        ↔ 9 + ((listed serve t payload s).map entryBytes).sum ≤ maxPacket)
      ∧ ((Fits (replyTo serve srv t fxpReadlink payload s)
          ∧ ∀ out, ∃ framed,
              (frame (replyTo serve srv t fxpReadlink payload s) out).1 = .ok framed)
        ↔ 21 + 2 * (linkTarget serve payload s).length ≤ maxPacket) := by
  have framed : ∀ m : Message,
      (Fits m ∧ ∀ out, ∃ framed, (frame m out).1 = .ok framed) ↔ Fits m := by
    intro m
    refine ⟨And.left, fun fits => ⟨fits, fun out => ?_⟩⟩
    exact (frame_ok_iff m out).mpr fits
  refine ⟨?_, ?_⟩
  · exact (framed _).trans (readdir_fits_iff serve srv t payload s)
  · exact (framed _).trans (readlink_fits_iff serve srv t payload s)

end Listing

/-- A driver with one directory of directories, and one link. -/
def linkStore (entries : List DirEntry) (s : Bytes) : (call : DriverCall) → call.Answer × Bytes
  | .stat _ => (.ok (some { mode := modeDir, size := 4096 }), s)
  | .listDir _ => (.ok entries, s)
  | .symlink target _ => (none, target)
  | .readLink _ => (.ok s, s)
  | call => (call.success, s)

def linkServer : Server := { plainServer with symlinker := true }

/-- SYMLINK of `/l` with this target. -/
def linkTo (target : Bytes) : SymlinkRequest where
  id := 1
  targetPath := target
  linkPath := text "/l"

theorem exec_symlink (entries : List DirEntry) (s : Bytes) {target : Bytes}
    (short : target.length ≤ defaultLimit)
    : Interaction.exec (serving (linkStore entries)) s
        (answer linkServer ∅ fxpSymlink (Message.symlinkRequest (linkTo target)).payload)
      = ((status 1 statusOK [], ∅), target) := by
  have link : (text "/l").length ≤ defaultLimit := by decide
  have decodes : decodeSymlink (Message.symlinkRequest (linkTo target)).payload
      = .ok (linkTo target) := by
    rw [Message.payload_eq_bytes]
    exact (decodeSymlink_delimits short link).whole
  have answers : ∀ payload, answer linkServer ∅ fxpSymlink payload
      = decoded ∅ (requestID payload) (decodeSymlink payload)
          fun m => keeping ∅ (opSymlink linkServer m) :=
    fun _ => rfl
  rw [answers, decodes]
  rfl

theorem fits_linkTo_iff (target : Bytes)
    : Fits (.symlinkRequest (linkTo target)) ↔ 15 + target.length ≤ maxPacket := by
  have link : (text "/l").length = 2 := by decide
  simp only [Fits, Message.payload_eq_bytes, Message.bytes, linkTo, List.length_append,
    BigEndian.length_encode, length_lengthPrefixed, link]
  omega

theorem linkTarget_linkStore (entries : List DirEntry) (s : Bytes)
    : linkTarget (linkStore entries) [0, 0, 0, 2, 0, 0, 0, 2, 0x2f, 0x6c] s = s :=
  rfl

theorem exec_opendir (entries : List DirEntry) (s : Bytes)
    : Interaction.exec (serving (linkStore entries)) s
        (answer linkServer ∅ fxpOpendir [0, 0, 0, 1, 0, 0, 0, 1, 0x2f])
      = ((.handleReply { id := 1, handle := zeroToken },
          AList.insert zeroToken { path := [slash], dir := true, entries } ∅), s) := by
  rfl

/-- Every name that can be joined to the root is shown, by induction on the listing. -/
theorem shown_linkStore (all entries : List DirEntry) (s : Bytes)
    (usable : ∀ e ∈ entries, join [slash] e.name = some (slash :: e.name))
    : shown (linkStore all) [slash] entries s
      = (entries.map fun e => (e.name, { mode := modeDir, size := 4096 }), s) := by
  induction entries with
  | nil => rfl
  | cons e rest ih =>
      simp only [List.forall_mem_cons] at usable
      simp only [shown, usable.1, linkStore, ih usable.2, List.map_cons]

/-- 64 directories, each with a name of its own of 3001 bytes. -/
def longNames : List DirEntry :=
  (List.range 64).map fun i => { name := UInt8.ofNat (0x41 + i) :: List.replicate 3000 0x61 }

theorem join_root {name : Bytes} (long : 2 < name.length) (noSlash : slash ∉ name)
    (noNul : 0 ∉ name)
    : join [slash] name = some (slash :: name) := by
  have usable : ¬ (name = [] ∨ name = text "." ∨ name = text ".."
      ∨ slash ∈ name ∨ 0 ∈ name) := by
    intro refused
    rcases refused with rfl | rfl | rfl | found | found
    · simp at long
    · exact absurd long (by decide)
    · exact absurd long (by decide)
    · exact noSlash found
    · exact noNul found
  rw [join, if_neg usable, if_pos rfl]

theorem join_longNames
    : ∀ e ∈ longNames, join [slash] e.name = some (slash :: e.name) := by
  intro e member
  obtain ⟨i, inside, rfl⟩ := List.mem_map.mp member
  have plain : ∀ i < 64, slash ≠ UInt8.ofNat (0x41 + i) ∧ 0 ≠ UInt8.ofNat (0x41 + i) := by
    decide
  obtain ⟨noSlash, noNul⟩ := plain i (List.mem_range.mp inside)
  apply join_root
  · rw [List.length_cons, List.length_replicate]
    decide
  · simp only [List.mem_cons, List.mem_replicate, not_or, not_and]
    exact ⟨noSlash, fun _ => by decide⟩
  · simp only [List.mem_cons, List.mem_replicate, not_or, not_and]
    exact ⟨noNul, fun _ => by decide⟩

theorem length_longNames : longNames.length = 64 := by
  rw [longNames, List.length_map, List.length_range]

theorem listed_longNames (s : Bytes)
    : listed (linkStore longNames)
        (AList.insert zeroToken { path := [slash], dir := true, entries := longNames } ∅)
        ([0, 0, 0, 2, 0, 0, 0, 32] ++ zeroToken) s
      = longNames.map fun e => (e.name, { mode := modeDir, size := 4096 }) := by
  have decodes : decodeHandle fxpReaddir ([0, 0, 0, 2, 0, 0, 0, 32] ++ zeroToken)
      = .ok { packetType := fxpReaddir, id := 2, handle := zeroToken } := by decide
  have batch : longNames.take readdirBatch = longNames :=
    List.take_of_length_le length_longNames.le
  have some : longNames ≠ [] := List.ne_nil_of_length_pos (by rw [length_longNames]; decide)
  have found : Handles.get
      (AList.insert zeroToken { path := [slash], dir := true, entries := longNames } ∅) zeroToken
      = .some { path := [slash], dir := true, entries := longNames } := AList.lookup_insert _
  simp only [listed, decodes, listedBy, found, if_true, List.drop_zero]
  rw [nextShown, dif_neg some, batch, shown_linkStore longNames longNames s join_longNames]
  simp only [List.isEmpty_map, List.isEmpty_eq_false_iff.mpr some, Bool.false_eq_true, if_false]

theorem longNames_bytes
    : ((longNames.map fun e =>
        (e.name, ({ mode := modeDir, size := 4096 } : Stat))).map entryBytes).sum = 388928 := by
  have each : ∀ e ∈ longNames,
      entryBytes (e.name, { mode := modeDir, size := 4096 }) = 6077 := by
    intro e member
    obtain ⟨i, inside, rfl⟩ := List.mem_map.mp member
    have digits : (formatUint (4096 : UInt64).toNat).length = 4 := by decide
    rw [entryBytes, digits, List.length_cons, List.length_replicate]
  have same : (longNames.map fun e => (e.name, ({ mode := modeDir, size := 4096 } : Stat))).map
      entryBytes = List.replicate longNames.length 6077 := by
    rw [List.map_map]
    exact List.map_eq_replicate_iff.mpr each
  rw [same, List.sum_replicate_nat, length_longNames]

/-- A target of this length is accepted by SYMLINK and not answered by READLINK. -/
theorem target_not_framed (entries : List DirEntry) {target : Bytes}
    (length : target.length = 140000)
    : Fits (.symlinkRequest (linkTo target))
      ∧ Interaction.exec (serving (linkStore entries)) []
          (answer linkServer ∅ fxpSymlink (Message.symlinkRequest (linkTo target)).payload)
        = ((status 1 statusOK [], ∅), target)
      ∧ ∀ out, ¬ ∃ framed, (frame (replyTo (linkStore entries) linkServer ∅ fxpReadlink
          [0, 0, 0, 2, 0, 0, 0, 2, 0x2f, 0x6c] target) out).1 = .ok framed := by
  refine ⟨?_, ?_, ?_⟩
  · rw [fits_linkTo_iff, length]
    decide
  · exact exec_symlink entries [] (by rw [length]; decide)
  · intro out
    rw [frame_ok_iff, readlink_fits_iff, linkTarget_linkStore, length]
    decide

theorem listing_not_framed (out : Bytes)
    : ¬ ∃ framed, (frame (replyTo (linkStore longNames) linkServer
          (AList.insert zeroToken { path := [slash], dir := true, entries := longNames } ∅)
          fxpReaddir ([0, 0, 0, 2, 0, 0, 0, 32] ++ zeroToken) []) out).1 = .ok framed := by
  rw [frame_ok_iff, readdir_fits_iff, listed_longNames, longNames_bytes]
  decide

/-- A link whose target the server has accepted and stored, and a listing of names shorter
than a path may be: neither reply can be framed.
-/
theorem long_target_is_not_answered
    : (∃ target : Bytes, target = List.replicate 140000 0x61
        ∧ Fits (.symlinkRequest (linkTo target))
        ∧ Interaction.exec (serving (linkStore longNames)) []
            (answer linkServer ∅ fxpSymlink (Message.symlinkRequest (linkTo target)).payload)
          = ((status 1 statusOK [], ∅), target)
        ∧ ∀ out, ¬ ∃ framed, (frame (replyTo (linkStore longNames) linkServer ∅ fxpReadlink
            [0, 0, 0, 2, 0, 0, 0, 2, 0x2f, 0x6c] target) out).1 = .ok framed)
      ∧ (∃ t, Interaction.exec (serving (linkStore longNames)) []
            (answer linkServer ∅ fxpOpendir [0, 0, 0, 1, 0, 0, 0, 1, 0x2f])
          = ((.handleReply { id := 1, handle := zeroToken }, t), [])
        ∧ ∀ out, ¬ ∃ framed, (frame (replyTo (linkStore longNames) linkServer t fxpReaddir
            ([0, 0, 0, 2, 0, 0, 0, 32] ++ zeroToken) []) out).1 = .ok framed) := by
  refine ⟨⟨_, rfl, ?_⟩, ?_⟩
  · exact target_not_framed longNames List.length_replicate
  · exact ⟨_, exec_opendir longNames [], listing_not_framed⟩

end SftpServer.Sftp
