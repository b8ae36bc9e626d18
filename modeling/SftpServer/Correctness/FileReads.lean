import SftpServer.Correctness.Storage

/-! READ on its two paths. An open file is asked for the range, a file without one is read
whole and sliced; the reply is the same, and it is empty at the end of the file only.
-/

namespace SftpServer.Sftp

open SftpServer.Foundations
open SftpServer.Wire

/-- The reply to a READ of `n` bytes at an offset, by the content of the file. -/
def exactReply (id : UInt32) (off : UInt64) (n : Nat) (data : Bytes) : Message :=
  if data.length ≤ off.toNat then status id statusEOF []
  else .dataReply { id, data := window data off.toNat n }

theorem Server.readLength_pos (srv : Server) : 0 < srv.readLength := by
  have limit : 0 < srv.packetLimit := by
    unfold packetLimit
    split
    · exact Nat.zero_lt_succ _
    · rename_i positive
      rw [Int64.le_iff_toInt_le] at positive
      have zero : (0 : Int64).toInt = 0 := rfl
      omega
  exact Nat.lt_min.mpr ⟨Nat.zero_lt_succ _, limit⟩

namespace ContentDriver

variable {S : Type} (driver : ContentDriver S) {data : Bytes} {off : UInt64} {n : Nat}

/-- In place: an offset that no file reaches is past the end of this one too. -/
theorem readReply_exact (id : UInt32) (sized : data.length < 2 ^ 63) (positive : 0 < n)
    : driver.readReply id off n (some data) = exactReply id off n data := by
  have beyond : maxInt64 < off ∨ window data off.toNat n = [] ↔ data.length ≤ off.toNat := by
    rw [window_eq_nil_iff, UInt64.lt_iff_toNat_lt]
    have largest : maxInt64.toNat = 2 ^ 63 - 1 := rfl
    omega
  simp only [readReply, exactReply, beyond]

/-- By path: the sum of offset and length saturates, and no content is that long. -/
theorem readWhole_exact (s : S) (id : UInt32) {path : Bytes} (sized : data.length < 2 ^ 63)
    (stored : driver.contents s path = some data)
    : (Interaction.exec driver.respond s (readWhole id path off n)).1
      = exactReply id off n data := by
  have answer := (driver.answers_readFile s path).2
  rw [stored] at answer
  simp only [readWhole, Fsys.readFile, Interaction.exec_bind, Interaction.exec_ask,
    Interaction.exec_ret, answer, exactReply]
  split
  · rfl
  · have slice : (data.take (min (satAdd off.toNat n) data.length)).drop off.toNat
        = window data off.toNat n := by
      have stop : min (satAdd off.toNat n) data.length = min (off.toNat + n) data.length := by
        unfold satAdd
        omega
      rw [stop, window, List.drop_take, List.take_eq_take_iff, List.length_drop]
      omega
    rw [slice]
    rfl

/-- A locked program answers what its body does, once the lock is taken. -/
theorem exec_withLock {α : Type} {acquire release : LockOp} (body : Prog α) (s : S)
    : ∃ within, driver.contents within = driver.contents s
        ∧ (Interaction.exec driver.respond s (withLock acquire release body)).1
          = (Interaction.exec driver.respond within body).1
        ∧ driver.contents (Interaction.exec driver.respond s (withLock acquire release body)).2
          = driver.contents (Interaction.exec driver.respond within body).2 := by
  refine ⟨(driver.respond s (.lock acquire)).2, driver.answers_lock s acquire, ?_⟩
  simp [withLock, driver.answers_lock]

variable {srv : Server} {t : Handles} {h : OpenFile}

/-- A READ of some bytes on a handle, whichever path it takes. -/
theorem read_replies {m : ReadRequest} (found : t.get m.handle = some h) (isFile : h.dir = false)
    (named : ∀ file, h.file = some file → driver.denotes file = h.path) (asks : 0 < m.length)
    {s : S} (stored : driver.contents s h.path = some data) (sized : data.length < 2 ^ 63)
    : ∃ job, readJob srv t m = (some job, none)
        ∧ driver.contents (driver.run s job).2 = driver.contents s
        ∧ (driver.run s job).1
          = exactReply m.id m.offset (min m.length.toNat srv.readLength) data := by
  have some : m.length ≠ 0 := by
    rintro none
    rw [none] at asks
    exact absurd asks (by decide)
  have positive : 0 < min m.length.toNat srv.readLength :=
    Nat.lt_min.mpr ⟨UInt32.lt_iff_toNat_lt.mp asks, srv.readLength_pos⟩
  simp only [readJob, found, isFile, some, Bool.false_eq_true, if_false]
  refine ⟨_, rfl, ?_⟩
  cases opened : h.file with
  | none =>
      obtain ⟨within, same, reply, after⟩ := driver.exec_withLock
        (readWhole m.id h.path m.offset (min m.length.toNat srv.readLength)) s
      rw [← same] at stored ⊢
      refine ⟨after.trans (driver.exec_readWhole within _ _ _ _), reply.trans ?_⟩
      exact driver.readWhole_exact within m.id sized stored
  | some file =>
      obtain ⟨within, same, reply, after⟩ := driver.exec_withLock
        (readAt m.id file m.offset (min m.length.toNat srv.readLength)) s
      obtain ⟨unchanged, answered⟩ := driver.exec_readAt within m.id file m.offset
        (min m.length.toNat srv.readLength)
      rw [← same, ← named file opened] at stored
      rw [stored, driver.readReply_exact m.id sized positive] at answered
      exact ⟨after.trans (unchanged.trans same), reply.trans answered⟩

/-- A client that reads on from what it has got, one request after the other, until it is
told that the file ends there; none if it is not told, or is answered otherwise.
-/
def download (srv : Server) (t : Handles) (tok : Bytes) : S → Bytes → List (UInt32 × UInt32)
    → Option Bytes
  | _, _, [] => none
  | s, got, (id, length) :: rest =>
      match readJob srv t { id, handle := tok, offset := UInt64.ofNat got.length, length } with
      | (some job, _) =>
          match driver.run s job with
          | (.dataReply reply, later) => download srv t tok later (got ++ reply.data) rest
          | (reply, _) => if reply = status id statusEOF [] then some got else none
      | (none, _) => none

section Steps

variable {tok got : Bytes} {id length : UInt32} {rest : List (UInt32 × UInt32)} {job : Job} {s : S}
  (prepared : readJob srv t
    { id, handle := tok, offset := UInt64.ofNat got.length, length } = (some job, none))

include prepared

theorem download_data {bytes : Bytes}
    (replied : (driver.run s job).1 = .dataReply { id, data := bytes })
    : driver.download srv t tok s got ((id, length) :: rest)
      = driver.download srv t tok (driver.run s job).2 (got ++ bytes) rest := by
  simp only [download, prepared]
  generalize driver.run s job = result at replied ⊢
  obtain ⟨reply, later⟩ := result
  cases replied
  rfl

theorem download_eof (replied : (driver.run s job).1 = status id statusEOF [])
    : driver.download srv t tok s got ((id, length) :: rest) = some got := by
  simp only [download, prepared]
  generalize driver.run s job = result at replied
  obtain ⟨reply, later⟩ := result
  cases replied
  exact if_pos rfl

end Steps

/-- A client that has got the beginning of the file gets the rest, by induction on what is
left: every reply but the last brings at least one byte.
-/
theorem download_rest (tok : Bytes) (found : t.get tok = some h) (isFile : h.dir = false)
    (named : ∀ file, h.file = some file → driver.denotes file = h.path)
    (sized : data.length < 2 ^ 63) {s : S} (stored : driver.contents s h.path = some data)
    (reached : Nat) (within : reached ≤ data.length) (requests : Nat → UInt32 × UInt32)
    (asks : ∀ i, 0 < (requests i).2)
    : ∃ k, driver.download srv t tok s (data.take reached) ((List.range k).map requests)
        = some data := by
  obtain ⟨left, remains⟩ : ∃ left, left = data.length - reached := ⟨_, rfl⟩
  induction left using Nat.strong_induction_on generalizing s reached requests with
  | _ left ih =>
      have offset : (UInt64.ofNat (data.take reached).length).toNat = reached := by
        have small : reached < UInt64.size := lt_of_le_of_lt within (by
          have size : UInt64.size = 2 ^ 64 := rfl
          omega)
        rw [List.length_take, Nat.min_eq_left within]
        exact UInt64.toNat_ofNat_of_lt' small
      obtain ⟨job, prepared, unchanged, replied⟩ := @read_replies _ driver data srv t h
        {
          id := (requests 0).1
          handle := tok
          offset := UInt64.ofNat (data.take reached).length
          length := (requests 0).2
        } found isFile named (asks 0) s stored sized
      simp only [exactReply, offset] at replied
      split at replied
      -- The end: what it has got is the file.
      · rename_i ended
        refine ⟨1, ?_⟩
        rw [List.range_one, List.map_singleton, driver.download_eof prepared replied,
          List.take_of_length_le ended]
      · rename_i more
        have progress : 0 < min (requests 0).2.toNat srv.readLength :=
          Nat.lt_min.mpr ⟨UInt32.lt_iff_toNat_lt.mp (asks 0), srv.readLength_pos⟩
        generalize min (requests 0).2.toNat srv.readLength = n at replied progress
        obtain ⟨k, rest⟩ := ih (data.length - min (reached + n) data.length) (by omega)
          (unchanged ▸ stored) (min (reached + n) data.length) (Nat.min_le_right ..)
          (fun i => requests (i + 1)) (fun i => asks (i + 1)) rfl
        refine ⟨k + 1, ?_⟩
        rw [List.range_succ_eq_map, List.map_cons, List.map_map,
          driver.download_data prepared replied, take_append_window, List.take_eq_take_min]
        exact rest

end ContentDriver

/-- READs of a file on handles of either kind are answered by its content alone: EOF at its
end or beyond, otherwise the range as far as it goes, which is not empty. A client that reads
on from the start gets all of it, whatever lengths it asks for.
-/
theorem read_exact_on_both_paths {S : Type} (driver : ContentDriver S) (srv : Server) {s : S}
    {path data : Bytes} (stored : driver.contents s path = some data)
    (sized : data.length < 2 ^ 63) {t t' : Handles} {tok : Bytes} {h h' : OpenFile} {file : File}
    (found : t.get tok = some h) (isFile : h.dir = false) (named : h.path = path)
    (opened : h.file = some file) (denotes : driver.denotes file = path)
    (found' : t'.get tok = some h') (isFile' : h'.dir = false) (named' : h'.path = path)
    (noFile : h'.file = none)
    : (∀ m : ReadRequest, m.handle = tok → 0 < m.length
        → ∃ inPlace whole, readJob srv t m = (some inPlace, none)
          ∧ readJob srv t' m = (some whole, none)
          ∧ (driver.run s inPlace).1 = (driver.run s whole).1
          ∧ (data.length ≤ m.offset.toNat → (driver.run s whole).1 = status m.id statusEOF [])
          ∧ (m.offset.toNat < data.length
            → (driver.run s whole).1 = .dataReply {
                id := m.id
                data := window data m.offset.toNat (min m.length.toNat srv.readLength)
              }
              ∧ window data m.offset.toNat (min m.length.toNat srv.readLength) ≠ []))
      ∧ ∀ requests : Nat → UInt32 × UInt32, (∀ i, 0 < (requests i).2)
        → (∃ k, driver.download srv t tok s [] ((List.range k).map requests) = some data)
          ∧ ∃ k, driver.download srv t' tok s [] ((List.range k).map requests) = some data := by
  subst named
  have denotesFile : ∀ other, h.file = some other → driver.denotes other = h.path := by
    intro other same
    cases opened.symm.trans same
    exact denotes
  have denotesNone : ∀ other, h'.file = some other → driver.denotes other = h'.path := by
    simp [noFile]
  have stored' : driver.contents s h'.path = some data := named'.symm ▸ stored
  refine ⟨?_, fun requests asks => ⟨?_, ?_⟩⟩
  · intro m same asks
    subst same
    obtain ⟨inPlace, prepared, _, replied⟩ :=
      @ContentDriver.read_replies _ driver _ srv t h m found isFile denotesFile asks s stored sized
    obtain ⟨whole, prepared', _, replied'⟩ :=
      @ContentDriver.read_replies _ driver _ srv t' h' m found' isFile' denotesNone asks s stored'
        sized
    refine ⟨inPlace, whole, prepared, prepared', replied.trans replied'.symm, ?_, ?_⟩
    · intro ended
      rw [replied', exactReply, if_pos ended]
    · intro more
      rw [replied', exactReply, if_neg (by omega)]
      have positive : 0 < min m.length.toNat srv.readLength :=
        Nat.lt_min.mpr ⟨UInt32.lt_iff_toNat_lt.mp asks, srv.readLength_pos⟩
      exact ⟨rfl, fun none => by rw [window_eq_nil_iff] at none; omega⟩
  · exact driver.download_rest tok found isFile denotesFile sized stored 0 (Nat.zero_le _)
      requests asks
  · exact driver.download_rest tok found' isFile' denotesNone sized stored' 0 (Nat.zero_le _)
      requests asks

/-- Three bytes, read one at a time. -/
theorem read_exact_three_bytes
    : ∃ k, (memory fun _ => [0x2f, 0x61]).download plainServer (handleOn none) zeroToken
          (holding [1, 2, 3]) [] ((List.range k).map fun i => (UInt32.ofNat i, 1))
        = some [1, 2, 3] := by
  have exact := @read_exact_on_both_paths _ (memory fun _ => [0x2f, 0x61]) plainServer
    (holding [1, 2, 3]) [0x2f, 0x61] [1, 2, 3] rfl (by decide) (handleOn (some ⟨0, true⟩))
    (handleOn none) zeroToken _ _ ⟨0, true⟩ rfl rfl rfl rfl rfl rfl rfl rfl rfl
  have one : (0 : UInt32) < 1 := by decide
  exact (exact.2 (fun i => (UInt32.ofNat i, 1)) fun _ => one).2

end SftpServer.Sftp
