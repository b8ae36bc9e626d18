import SftpServer.Correctness.RefusedOpens

/-! WRITE on its two paths. In place it is one `WriteAt`; otherwise the whole file is read,
spliced and written back. Either way the data goes where the request says, whatever the
handle was opened for.
-/

namespace SftpServer.Sftp

open SftpServer.Foundations
open SftpServer.Wire

-----------------------------------------------------------------------------------------
-- The splice
-----------------------------------------------------------------------------------------

/-- The buffer of `writeSplice` before the data is copied in. -/
def grown (old : Bytes) (stop : Nat) : Bytes := old ++ List.replicate (stop - old.length) 0

/-- `copy(buf[off:], data)`, as far as there is room; none if the slice expression is out of
bounds.
-/
def copyFrom (buf : Bytes) (off : Nat) (data : Bytes) : Option Bytes :=
  if off ≤ buf.length then
    some (buf.take off ++ data.take (buf.length - off) ++ buf.drop (off + data.length))
  else none

/-- What a rewrite of the whole file takes: the end of the write does not wrap, and it lies
in the file or grows it within both bounds.
-/
def SpliceAccepts (old : Bytes) (off : UInt64) (data : Bytes) : Prop :=
  off.toNat + data.length < 2 ^ 64
  ∧ (off.toNat + data.length ≤ old.length
    ∨ off.toNat + data.length - old.length ≤ maxSpliceGrowth
      ∧ off.toNat + data.length ≤ maxFileSplice)

instance (old : Bytes) (off : UInt64) (data : Bytes) : Decidable (SpliceAccepts old off data) :=
  inferInstanceAs (Decidable (_ ∧ _))

/-- The file after a splice, position by position, and the slice expression it comes from. -/
structure IsSplice (old : Bytes) (off : Nat) (data content : Bytes) : Prop where
  length : content.length = max old.length (off + data.length)
  written : ∀ q, off ≤ q → q < off + data.length → content[q]? = data[q - off]?
  kept : ∀ q, ¬(off ≤ q ∧ q < off + data.length) → q < old.length → content[q]? = old[q]?
  zero : ∀ q, ¬(off ≤ q ∧ q < off + data.length) → old.length ≤ q → q < content.length
    → content[q]? = some 0
  inBounds : copyFrom (grown old (off + data.length)) off data = some content

section Splice

variable {old data : Bytes} {off : UInt64} {start stop : Nat}

/-- The splice is a write that pads, even of nothing. -/
theorem spliced_eq_writeAt (above : start ≤ stop) (within : stop ≤ start + data.length)
    : spliced old start stop data = writeAt true 0 old start data := by
  have front : min (start - old.length) (stop - old.length)
      = min (start - old.length) (start + data.length - old.length) := by
    omega
  have back : stop - old.length - (start + data.length - old.length)
      = start + data.length - old.length - (start + data.length - old.length) := by
    omega
  simp only [spliced, writeAt, Bool.true_eq_false, and_false, if_false, List.take_append,
    List.take_replicate, List.drop_append, List.drop_replicate, front, back]

theorem isSplice_writeAt : IsSplice old start data (writeAt true 0 old start data) where
  length := by simp [reach]
  written q from_ below := by
    rw [getElem?_writeAt, if_pos ⟨from_, below⟩]
  kept q outside inside := by
    rw [getElem?_writeAt, if_neg outside, if_pos (by omega)]
    simp [inside]
  zero q outside beyond below := by
    rw [length_writeAt] at below
    rw [getElem?_writeAt, if_neg outside, if_pos below]
    simp [beyond]
  inBounds := by
    have room : start + data.length ≤ (grown old (start + data.length)).length := by
      simp [grown]
      omega
    have whole : data.take ((grown old (start + data.length)).length - start) = data :=
      List.take_of_length_le (by omega)
    rw [copyFrom, if_pos (by omega), whole]
    simp [writeAt, grown]

/-- The check of `writeSplice`, on the sum that may have wrapped. -/
theorem splice_refused_iff (sized : data.length < 2 ^ 63)
    : ((off.toNat + data.length) % 2 ^ 64 < off.toNat
        ∨ (old.length < (off.toNat + data.length) % 2 ^ 64
          ∧ (maxSpliceGrowth < (off.toNat + data.length) % 2 ^ 64 - old.length
            ∨ maxFileSplice < (off.toNat + data.length) % 2 ^ 64)))
      ↔ ¬SpliceAccepts old off data := by
  have offset := off.toNat_lt
  unfold SpliceAccepts
  omega

/-- Every run of a splice, whatever the file holds: it is read once. If it cannot be read it is
not written; else the splice is accepted and written back once, or refused and not written.
-/
theorem writeSplice_exact {id : UInt32} {path : Bytes} (sized : data.length < 2 ^ 63)
    {trace : List Event} {reply : Message} (run : (writeSplice id path off data).Runs trace reply)
    : ∃ answer later, trace = ⟨.driver (.readFile path), answer⟩ :: later
      ∧ (∀ err, answer = .error err → later = [] ∧ reply = statusErr id err statusFailure)
      ∧ ∀ old, answer = .ok old
        → (SpliceAccepts old off data
            → ∃ content failure, later = [⟨.driver (.writeFile path content 0o644), failure⟩]
              ∧ IsSplice old off.toNat data content
              ∧ reply = statusErr id failure statusFailure
              ∧ (failure = none → reply = status id statusOK []))
          ∧ (¬SpliceAccepts old off data
            → later = []
              ∧ reply = status id statusFailure
                (text "write beyond what rewriting the whole file can hold")) := by
  obtain ⟨answer, later, rfl, rest⟩ := Interaction.runs_call_iff.mp run
  refine ⟨answer, later, rfl, ?_⟩
  cases answer with
  | error err =>
      obtain ⟨rfl, rfl⟩ := Interaction.runs_ret_iff.mp rest
      refine ⟨fun _ same => ?_, fun _ same => by cases same⟩
      cases same
      exact ⟨rfl, rfl⟩
  | ok old =>
      refine ⟨fun _ same => (by cases same), fun _ same => ?_⟩
      cases same
      dsimp only at rest
      split at rest
      · rename_i refused
        have excluded := (splice_refused_iff sized).mp refused
        obtain ⟨rfl, rfl⟩ := Interaction.runs_ret_iff.mp rest
        exact ⟨fun accepted => absurd accepted excluded, fun _ => ⟨rfl, rfl⟩⟩
      · rename_i served
        have accepted : SpliceAccepts old off data :=
          not_not.mp fun excluded => served ((splice_refused_iff sized).mpr excluded)
        obtain ⟨failure, tail, rfl, ends⟩ := Interaction.runs_call_iff.mp rest
        refine ⟨fun _ => ?_, fun excluded => absurd accepted excluded⟩
        rw [Nat.mod_eq_of_lt accepted.1, spliced_eq_writeAt (by omega) le_rfl]
        cases failure with
        | none =>
            obtain ⟨rfl, rfl⟩ := Interaction.runs_ret_iff.mp ends
            exact ⟨_, none, rfl, isSplice_writeAt, rfl, fun _ => rfl⟩
        | some err =>
            obtain ⟨rfl, rfl⟩ := Interaction.runs_ret_iff.mp ends
            exact ⟨_, some err, rfl, isSplice_writeAt, rfl, by simp⟩

/-- A byte written past the end of a file of one. -/
theorem writeSplice_exact_hole
    : SpliceAccepts [1] 3 [7]
      ∧ (writeSplice 1 [0x2f] 3 [7]).Runs [⟨.driver (.readFile [0x2f]), .ok [1]⟩,
          ⟨.driver (.writeFile [0x2f] [1, 0, 0, 7] 0o644), none⟩] (status 1 statusOK [])
      ∧ IsSplice [1] 3 [7] [1, 0, 0, 7] := by
  have accepts : SpliceAccepts [1] 3 [7] := by decide
  have run : (writeSplice 1 [0x2f] 3 [7]).Runs [⟨.driver (.readFile [0x2f]), .ok [1]⟩,
      ⟨.driver (.writeFile [0x2f] [1, 0, 0, 7] 0o644), none⟩] (status 1 statusOK []) :=
    .ask (.ask (.ret _))
  obtain ⟨answer, later, same, _, written⟩ := writeSplice_exact (by decide) run
  cases same
  obtain ⟨content, failure, same, splice, _⟩ := (written [1] rfl).1 accepts
  cases same
  exact ⟨accepts, run, splice⟩

end Splice

-----------------------------------------------------------------------------------------
-- WRITEs that are answered OK
-----------------------------------------------------------------------------------------

theorem status_ne_ok {id : UInt32} {code : Status} {msg : Bytes} (refusal : code ≠ statusOK)
    : status id code msg ≠ status id statusOK [] := by
  intro same
  simp only [status, Message.statusReply.injEq, StatusReply.mk.injEq] at same
  exact refusal same.2.1

theorem statusErr_ne_ok {id : UInt32} {err : DriverError}
    : statusErr id (some err) statusFailure ≠ status id statusOK [] :=
  status_ne_ok (statusFor_some_ne_ok err (by decide))

/-- A program that is one driver call is answered OK exactly if the call succeeds. -/
theorem statusOf_ok_iff {State : Type} {respond : State → (effect : Effect) → effect.Answer × State}
    {s : State} {id : UInt32} {call : Prog (Option DriverError)}
    : (Interaction.exec respond s (statusOf id call statusFailure)).1 = status id statusOK []
      ↔ (Interaction.exec respond s call).1 = none := by
  rw [statusOf, Interaction.exec_bind]
  cases (Interaction.exec respond s call).1 with
  | none => exact iff_of_true rfl rfl
  | some err => exact iff_of_false statusErr_ne_ok (by simp)

/-- It leaves what the call leaves. -/
theorem exec_statusOf_state {State : Type}
    {respond : State → (effect : Effect) → effect.Answer × State} {s : State} {id : UInt32}
    {call : Prog (Option DriverError)} {fallback : Status}
    : (Interaction.exec respond s (statusOf id call fallback)).2
      = (Interaction.exec respond s call).2 := by
  rw [statusOf, Interaction.exec_bind]
  cases (Interaction.exec respond s call).1 with
  | none => rfl
  | some err => rfl

section Writes

variable {State : Type} {srv : Server} {t : Handles} {tok path : Bytes}

/-- A splice that is answered OK has read the file and written it back. -/
theorem PathStore.writeSplice_ok (store : PathStore State) {s : State} {id : UInt32}
    {off : UInt64} {data : Bytes}
    (ok : (Interaction.exec store.respond s (writeSplice id path off data)).1
      = status id statusOK [])
    : ∃ old, store.contents s path = some old
        ∧ store.contents (Interaction.exec store.respond s (writeSplice id path off data)).2
          = Function.update (store.contents s) path
              (some (writeAt true 0 old off.toNat data)) := by
  simp only [writeSplice, Fsys.readFile, Interaction.exec_bind, Interaction.exec_ask,
    Interaction.exec_ret, FileStore.respond] at ok ⊢
  have unchanged := store.serve_keeps s (.readFile path) rfl
  cases answered : (store.serve s (.readFile path)).1 with
  | error err =>
      rw [answered] at ok
      exact absurd ok statusErr_ne_ok
  | ok old =>
      refine ⟨old, store.reads s path old answered, ?_⟩
      rw [answered] at ok
      dsimp only at ok ⊢
      split at ok
      · exact absurd ok (status_ne_ok (by decide))
      · rename_i served
        rw [if_neg served, exec_statusOf_state, ← unchanged]
        rw [statusOf_ok_iff] at ok
        rw [spliced_eq_writeAt (by omega) (Nat.mod_le ..)] at ok ⊢
        exact store.writes _ path _ 0o644 ok

/-- A splice that is accepted, of a file that can be read and written. -/
theorem PathStore.writeSplice_serves (store : PathStore State) {s : State} {id : UInt32}
    {off : UInt64} {data old : Bytes} (accepts : SpliceAccepts old off data)
    (reads : (store.serve s (.readFile path)).1 = .ok old)
    (rewrites : (store.serve (store.serve s (.readFile path)).2
      (.writeFile path (writeAt true 0 old off.toNat data) 0o644)).1 = none)
    : (Interaction.exec store.respond s (writeSplice id path off data)).1
      = status id statusOK [] := by
  have fits := accepts.1
  have bounds := accepts.2
  simp only [writeSplice, Fsys.readFile, Interaction.exec_bind, Interaction.exec_ask,
    Interaction.exec_ret, FileStore.respond, reads]
  rw [if_neg (by omega), Nat.mod_eq_of_lt fits, spliced_eq_writeAt (by omega) le_rfl]
  exact statusOf_ok_iff.mpr rewrites

/-- `WriteAt` that is answered OK has written the file in place. -/
theorem OpenStore.writeAt_ok (store : OpenStore State) {s : State} {id : UInt32} {file : File}
    {off : UInt64} {data old : Bytes} (fits : ¬maxInt64 < off)
    (stored : store.contents s (store.denotes file) = some old)
    (ok : (Interaction.exec store.respond s
        (statusOf id (file.writeAt data off.toInt64) statusFailure)).1 = status id statusOK [])
    : store.contents (Interaction.exec store.respond s
          (statusOf id (file.writeAt data off.toInt64) statusFailure)).2
        = Function.update (store.contents s) (store.denotes file)
            (some (writeAt false 0 old off.toNat data)) := by
  rw [statusOf_ok_iff] at ok
  rw [exec_statusOf_state]
  exact store.writesAt s file data off.toInt64 off.toNat old (toInt_toInt64 fits) stored ok

/-- WRITEs that are answered OK one after the other, with the states they lead through. -/
inductive FileStore.Written (store : FileStore State) (srv : Server) (t : Handles)
    : State → List WriteRequest → State → Prop where
  | nil (s : State) : Written store srv t s [] s
  | cons {s final : State} {m : WriteRequest} {rest : List WriteRequest} {job : Job}
    (prepared : writeJob srv t m = (some job, none))
    (ok : (Interaction.exec store.respond s job.run).1 = status m.id statusOK [])
    (later : Written store srv t (Interaction.exec store.respond s job.run).2 rest final)
    : Written store srv t s (m :: rest) final

/-- A WRITE on this handle that is answered OK writes the file at this path. -/
def FileStore.WritesTo (store : FileStore State) (srv : Server) (t : Handles)
    (tok path : Bytes) (pads : Bool) : Prop :=
  ∀ s m job old, m.handle = tok → writeJob srv t m = (some job, none)
    → (Interaction.exec store.respond s job.run).1 = status m.id statusOK []
    → store.contents s path = some old
    → store.contents (Interaction.exec store.respond s job.run).2
      = Function.update (store.contents s) path (some (writeAt pads 0 old m.offset.toNat m.data))

/-- On the whole-file path an empty write pads. -/
theorem PathStore.writesTo_byPath (store : PathStore State) (srv : Server) {h : OpenFile}
    (found : t.get tok = some h) (noFile : h.writable = none)
    : store.WritesTo srv t tok h.path true := by
  intro s m job old same prepared ok stored
  subst same
  obtain ⟨h', found', _, _, _, rfl⟩ := writeJob_inv prepared
  cases found.symm.trans found'
  rw [noFile] at ok ⊢
  simp only [locked, store.exec_withLock] at ok ⊢
  obtain ⟨old', stored', wrote⟩ := store.writeSplice_ok ok
  cases stored.symm.trans stored'
  exact wrote

theorem OpenStore.writesTo_inPlace (store : OpenStore State) (srv : Server) {h : OpenFile}
    {file : File} (found : t.get tok = some h) (opened : h.writable = some file)
    (named : store.denotes file = h.path)
    : store.WritesTo srv t tok h.path false := by
  intro s m job old same prepared ok stored
  subst same
  obtain ⟨h', found', _, _, fits, rfl⟩ := writeJob_inv prepared
  cases found.symm.trans found'
  rw [opened] at ok ⊢
  simp only [lockedIo, store.exec_withLock] at ok ⊢
  rw [← named] at stored ⊢
  exact store.writeAt_ok fits stored ok

/-- Offset and data of WRITEs. -/
def placements (writes : List WriteRequest) : List (Nat × Bytes) :=
  writes.map fun m => (m.offset.toNat, m.data)

/-- What WRITEs on one handle leave, by induction on them. -/
theorem FileStore.Written.contents {store : FileStore State} {pads : Bool} {s final : State}
    {writes : List WriteRequest} {old : Bytes} (written : store.Written srv t s writes final)
    (writesTo : store.WritesTo srv t tok path pads) (handle : ∀ m ∈ writes, m.handle = tok)
    (stored : store.contents s path = some old)
    : store.contents final path = some (writeAll pads 0 old (placements writes)) := by
  induction written generalizing old with
  | nil => exact stored
  | cons prepared ok _ ih =>
      refine ih (fun m member => handle m (.tail _ member)) ?_
      rw [writesTo _ _ _ _ (handle _ (.head _)) prepared ok stored, Function.update_self]

/-- The pieces of a file, written on the whole-file path in any order to an empty file. -/
theorem upload_in_any_order (store : PathStore State) {h : OpenFile}
    (found : t.get tok = some h) (noFile : h.writable = none) {s final : State}
    {pieces : List Bytes} {writes : List WriteRequest} (handle : ∀ m ∈ writes, m.handle = tok)
    (permuted : (placements writes).Perm (placed 0 pieces))
    (empty : store.contents s h.path = some []) (written : store.Written srv t s writes final)
    : store.contents final h.path = some pieces.flatten := by
  have contents := written.contents (store.writesTo_byPath srv found noFile) handle empty
  rw [contents, writeAll_perm permuted, List.nil_append]

/-- Two bytes, the second of them first. -/
theorem upload_backwards
    : ∃ final, openingStore.Written plainServer (handleOn none) (holding [])
          [writeTo 1 [2], writeTo 0 [1]] final
        ∧ openingStore.contents final [0x2f, 0x61] = some [1, 2] := by
  have written : openingStore.Written plainServer (handleOn none) (holding [])
      [writeTo 1 [2], writeTo 0 [1]] _ := .cons rfl rfl (.cons rfl rfl (.nil _))
  have permuted : (placements [writeTo 1 [2], writeTo 0 [1]]).Perm (placed 0 [[1], [2]]) :=
    .swap ..
  refine ⟨_, written, ?_⟩
  exact @upload_in_any_order _ plainServer (handleOn none) zeroToken openingStore.toPathStore
    { path := [0x2f, 0x61], write := true } rfl rfl _ _ _ _ (by simp [writeTo]) permuted rfl
    written

/-- The same WRITE on the two paths: it is answered and leaves the files alike exactly if it
has data, or does not lie past the end.
-/
theorem write_paths_agree_iff (store : OpenStore State) {s : State} {m : WriteRequest}
    {byPath inPlace : Handles} {h h' : OpenFile} {file : File} {old : Bytes}
    (found : byPath.get m.handle = some h) (noFile : h.writable = none)
    (found' : inPlace.get m.handle = some h') (opened : h'.writable = some file)
    (same : h'.path = h.path) (named : store.denotes file = h.path) {whole positional : Job}
    (prepared : writeJob srv byPath m = (some whole, none))
    (prepared' : writeJob srv inPlace m = (some positional, none))
    (accepts : SpliceAccepts old m.offset m.data)
    (reads : (store.serve s (.readFile h.path)).1 = .ok old)
    (rewrites : (store.serve (store.serve s (.readFile h.path)).2
      (.writeFile h.path (writeAt true 0 old m.offset.toNat m.data) 0o644)).1 = none)
    (writes : (store.serve s (.fileWriteAt file m.data m.offset.toInt64)).1 = none)
    : (Interaction.exec store.respond s whole.run).1
        = (Interaction.exec store.respond s positional.run).1
        ∧ store.contents (Interaction.exec store.respond s whole.run).2
          = store.contents (Interaction.exec store.respond s positional.run).2
      ↔ m.data ≠ [] ∨ m.offset.toNat ≤ old.length := by
  have stored := store.reads s h.path old reads
  have whole_ok : (Interaction.exec store.respond s whole.run).1 = status m.id statusOK [] := by
    obtain ⟨_, found₁, _, _, _, rfl⟩ := writeJob_inv prepared
    cases found.symm.trans found₁
    rw [noFile]
    simp only [locked, store.exec_withLock]
    exact store.writeSplice_serves accepts reads rewrites
  have positional_ok
      : (Interaction.exec store.respond s positional.run).1 = status m.id statusOK [] := by
    obtain ⟨_, found₁, _, _, _, rfl⟩ := writeJob_inv prepared'
    cases found'.symm.trans found₁
    rw [opened]
    simp only [lockedIo, store.exec_withLock]
    exact statusOf_ok_iff.mpr writes
  rw [whole_ok, positional_ok,
    store.writesTo_byPath srv found noFile s m whole old rfl prepared whole_ok stored,
    store.writesTo_inPlace srv found' opened (named.trans same.symm) s m positional old rfl
      prepared' positional_ok (same ▸ stored),
    same, ← writeAt_padding_iff, eq_self, true_and]
  constructor
  · intro alike
    simpa using congrFun alike h.path
  · intro equal
    rw [equal]

/-- A byte past the end is stored alike. -/
theorem write_paths_agree_hole
    : ∃ whole positional, writeJob plainServer (handleOn none) (writeTo 3 [9]) = (some whole, none)
        ∧ writeJob plainServer (handleOn (some ⟨0, true⟩)) (writeTo 3 [9])
          = (some positional, none)
        ∧ openingStore.contents
            (Interaction.exec openingStore.respond (holding [7]) whole.run).2
          = openingStore.contents
            (Interaction.exec openingStore.respond (holding [7]) positional.run).2 := by
  refine ⟨_, _, rfl, rfl, ?_⟩
  exact ((@write_paths_agree_iff _ plainServer openingStore (holding [7]) (writeTo 3 [9])
    (handleOn none) (handleOn (some ⟨0, true⟩)) _ _ ⟨0, true⟩ [7] rfl rfl rfl rfl rfl rfl _ _ rfl
    rfl (by decide) rfl rfl rfl).mpr (.inl (by decide))).2

/-- Nothing, written past the end: the whole-file path grows the file. -/
theorem empty_write_grows_file
    : ∃ whole positional, writeJob plainServer (handleOn none) (writeTo 3 []) = (some whole, none)
        ∧ writeJob plainServer (handleOn (some ⟨0, true⟩)) (writeTo 3 []) = (some positional, none)
        ∧ SpliceAccepts [7] 3 []
        ∧ openingStore.contents
            (Interaction.exec openingStore.respond (holding [7]) whole.run).2 [0x2f, 0x61]
          = some [7, 0, 0]
        ∧ openingStore.contents
            (Interaction.exec openingStore.respond (holding [7]) positional.run).2 [0x2f, 0x61]
          = some [7] :=
  ⟨_, _, rfl, rfl, by decide, rfl, rfl⟩

/-- What was written before is written as well. -/
theorem FileStore.Written.take {store : FileStore State} {s final : State}
    {writes : List WriteRequest} (written : store.Written srv t s writes final) (k : Nat)
    : ∃ between, store.Written srv t s (writes.take k) between := by
  induction written generalizing k with
  | nil s => exact ⟨s, by simpa using .nil s⟩
  | @cons s _ m rest job prepared ok later ih =>
      cases k with
      | zero => exact ⟨s, .nil s⟩
      | succ k =>
          obtain ⟨between, earlier⟩ := ih k
          exact ⟨between, .cons prepared ok earlier⟩

/-- WRITEs on a handle that was opened with APPEND, all of them answered OK: each of them
appends exactly if they are all sent to the end of the file.
-/
theorem append_handle_appends_iff (store : OpenStore State) {s opened : State}
    {m : OpenRequest} (append : m.pflags &&& fxfAppend ≠ 0) {id : UInt32} {later : Handles}
    (granted : Interaction.exec store.respond s (opOpen srv t m)
      = ((.handleReply ⟨id, tok⟩, later), opened))
    : ∃ h, later.get tok = some h ∧ resolve m.id m.path = .ok h.path ∧ h.write = true
        ∧ ∀ old writes final, store.contents opened h.path = some old
          → (∀ w ∈ writes, w.handle = tok) → store.Written srv later opened writes final
          → ((∀ k between, store.Written srv later opened (writes.take k) between
                → store.contents between h.path
                  = some (old ++ ((writes.take k).map fun w => w.data).flatten))
              ↔ AtEnd h.writable.isNone old.length (placements writes)) := by
  have wants : wantsWrite m.pflags = true := by
    by_contra reading
    exact append (clear_of_not_wantsWrite (by simpa using reading) (by decide))
  obtain ⟨h, found, resolved, write, opens⟩ := store.granted_opOpen wants granted
  refine ⟨h, found, resolved, write, fun old writes final stored handle written => ?_⟩
  have writesTo : store.WritesTo srv later tok h.path h.writable.isNone := by
    cases file : h.writable with
    | none => exact store.writesTo_byPath srv found file
    | some file' =>
        obtain ⟨s, answered⟩ := opens file' file
        exact store.writesTo_inPlace srv found file (store.opens s _ _ answered)
  have contents (k : Nat) {between : State}
      (earlier : store.Written srv later opened (writes.take k) between)
      : store.contents between h.path
        = some (writeAll h.writable.isNone 0 old ((placements writes).take k)) := by
    have left := earlier.contents writesTo (fun w member => handle w (List.mem_of_mem_take member))
      stored
    rwa [placements, List.map_take] at left
  have data (k : Nat)
      : (((placements writes).take k).map Prod.snd) = (writes.take k).map fun w => w.data := by
    rw [placements, ← List.map_take, List.map_map]
    rfl
  rw [← writeAll_appends_iff]
  constructor
  · intro all k
    obtain ⟨between, earlier⟩ := written.take k
    rw [data]
    exact Option.some.inj ((contents k earlier).symm.trans (all k between earlier))
  · intro all k between earlier
    rw [contents k earlier, all k, data]

/-- The session after `/a` was opened with WRITE and APPEND. -/
def appending (srv : Server) : (Message × Handles) × Contents :=
  Interaction.exec openingStore.respond oneFile (opOpen srv ∅ (openExisting 0x06))

/-- A byte at the end. -/
theorem append_handle_appends_one
    : ∃ final, openingStore.Written { plainServer with opener := true }
          (appending { plainServer with opener := true }).1.2
          (appending { plainServer with opener := true }).2 [writeTo 1 [8]] final
        ∧ openingStore.contents final [0x2f, 0x61] = some [7, 8] := by
  have written : openingStore.Written { plainServer with opener := true }
      (appending { plainServer with opener := true }).1.2
      (appending { plainServer with opener := true }).2 [writeTo 1 [8]] _ :=
    .cons rfl rfl (.nil _)
  obtain ⟨h, found, _, _, appends⟩ := @append_handle_appends_iff _
    { plainServer with opener := true } ∅ zeroToken openingStore oneFile _ (openExisting 0x06)
    (by decide) 1 _ rfl
  cases found
  have all := (appends [7] [writeTo 1 [8]] _ rfl (by simp [writeTo]) written).mpr
    ⟨.inl rfl, trivial⟩
  exact ⟨_, written, all 1 _ written⟩

/-- On both paths a WRITE at offset 0 replaces the byte that was there. -/
theorem append_handle_overwrites
    : (openExisting 0x06).pflags &&& fxfAppend ≠ 0
      ∧ (appending plainServer).1.1 = .handleReply ⟨1, zeroToken⟩
      ∧ (appending { plainServer with opener := true }).1.1 = .handleReply ⟨1, zeroToken⟩
      ∧ (∃ final, openingStore.Written plainServer (appending plainServer).1.2
            (appending plainServer).2 [writeTo 0 [9]] final
          ∧ openingStore.contents final [0x2f, 0x61] = some [9])
      ∧ (∃ final, openingStore.Written { plainServer with opener := true }
            (appending { plainServer with opener := true }).1.2
            (appending { plainServer with opener := true }).2 [writeTo 0 [9]] final
          ∧ openingStore.contents final [0x2f, 0x61] = some [9]) := by
  refine ⟨by decide, rfl, rfl, ⟨_, .cons rfl rfl (.nil _), rfl⟩, ⟨_, .cons rfl rfl (.nil _), rfl⟩⟩

end Writes

end SftpServer.Sftp
