import SftpServer.Concurrency.WriteOrder

/-! What READs in flight beside WRITEs are answered. The bytes of a READ do not depend on
the order, since every WRITE of one of them conflicts with it; how far the file reaches
does. A WRITE that is free to run before or after a READ and takes the file's end into the
READ's range changes the reply with the order.
-/

namespace SftpServer.Sftp

open SftpServer.Foundations
open SftpServer.Wire

namespace ContentDriver

variable {S : Type} (driver : ContentDriver S)

/-- The replies in the order in which the jobs run, each with the number of its request. -/
def replies (jobs : List Job) : S → List (Fin jobs.length) → List (Fin jobs.length × Message)
  | _, [] => []
  | s, i :: rest =>
      (i, (driver.run s (jobs.get i)).1) :: replies jobs (driver.run s (jobs.get i)).2 rest

/-- What a request is answered when the jobs run in this order. -/
def replyTo (jobs : List Job) (s : S) (order : List (Fin jobs.length)) (i : Fin jobs.length)
    : Option Message :=
  (driver.replies jobs s order).lookup i

/-- A job is answered by what the jobs before it leave, by induction on them. -/
theorem replyTo_split {jobs : List Job} {i : Fin jobs.length}
    {before after : List (Fin jobs.length)} (first : i ∉ before) (s : S)
    : driver.replyTo jobs s (before ++ i :: after) i
      = some (driver.run (driver.runAll s (before.map jobs.get)) (jobs.get i)).1 := by
  induction before generalizing s with
  | nil => simp [replyTo, replies, runAll]
  | cons other rest ih =>
      rw [List.mem_cons, not_or] at first
      have found := ih first.2 (driver.run s (jobs.get other)).2
      simp only [replyTo, replies, List.cons_append, List.lookup_cons,
        beq_eq_false_iff_ne.mpr first.1]
      exact found

/-- The reply to a positional access, by the contents of its file. -/
def reply (id : UInt32) : Access → Option Bytes → Message
  | .read _ off n => driver.readReply id off n
  | .write _ _ _ | .rewrite _ _ _ => driver.writeReply id

end ContentDriver

/-- Whether an access works in place, at an offset. -/
def Access.inPlace : Access → Bool
  | .read _ _ _ | .write _ _ _ => true
  | .rewrite _ _ _ => false

/-- A job on handles that read and write in place, and its reply. -/
theorem Issued.inPlace {S : Type} (driver : ContentDriver S) {srv : Server} {job : Job}
    (issued : Issued srv (fun t => t.Denotes driver.denotes ∧ t.Positional) job)
    : ∃ id access, Shape driver.denotes job access
        ∧ access.inPlace = true
        ∧ ∀ s, (driver.run s job).1
            = driver.reply id access (driver.contents s access.span.key) := by
  cases issued with
  | read t m table prepared =>
      obtain ⟨named, positional⟩ := table
      obtain ⟨h, found, file, rfl⟩ := readJob_inv prepared
      have member := Handles.mem_openFiles_of_get found
      obtain ⟨file, opened⟩ := Option.isSome_iff_exists.mp (positional h member file).1
      rw [← named h member file (Or.inl opened), opened]
      refine ⟨m.id, _, .readAt m.id file m.offset _, rfl, fun s => ?_⟩
      exact driver.result_withLock
        (fun contents => driver.readReply m.id m.offset _ (contents (driver.denotes file)))
        (fun s => (driver.exec_readAt s m.id file m.offset _).2) s
  | write t m table prepared =>
      obtain ⟨named, positional⟩ := table
      obtain ⟨h, found, file, forWriting, fits, rfl⟩ := writeJob_inv prepared
      have member := Handles.mem_openFiles_of_get found
      obtain ⟨file, opened⟩ :=
        Option.isSome_iff_exists.mp ((positional h member file).2 forWriting)
      rw [← named h member file (Or.inr opened), opened]
      refine ⟨m.id, _, .writeAt m.id file m.offset m.data fits, rfl, fun s => ?_⟩
      exact driver.result_withLock
        (fun contents => driver.writeReply m.id (contents (driver.denotes file)))
        (fun s => (driver.exec_writeAt s m.id file m.offset m.data fits).2) s

/-- No conflict, nor a chain of them, orders these two jobs. -/
def Free (jobs : List Job) (i j : Fin jobs.length) : Prop :=
  i ≠ j ∧ ¬MustPrecede (Conflicting jobs) i j ∧ ¬MustPrecede (Conflicting jobs) j i

/-- No WRITE that is free to run before or after this READ takes the file's end further
into the READ's range than it is already: by the file's contents at first, or by a WRITE
that must run before.
-/
def Settled (pads : Bool) (contents : Contents) (jobs : List Job) (r : Fin jobs.length)
    : Prop :=
  ∀ key off n data, (jobs.get r).span = .readRange key off n → ¬maxInt64 < off
    → contents key = some data
    → ∀ w start length, (jobs.get w).span = .writeRange key start length → Free jobs w r
    → min (reach pads start.toNat length) (off.toNat + n) ≤ max off.toNat data.length
      ∨ ∃ m start' length', MustPrecede (Conflicting jobs) m r
          ∧ (jobs.get m).span = .writeRange key start' length'
          ∧ min (reach pads start.toNat length) (off.toNat + n)
            ≤ reach pads start'.toNat length'

namespace Access

/-- The file at `key` after the access. -/
def fileAfter (pads : Bool) (key : Bytes) (a : Access) (data : Bytes) : Bytes :=
  if a.span.key = key then a.change pads data else data

variable {pads : Bool} {a : Access} {contents : Contents} {key data : Bytes}

theorem apply_none (missing : contents key = none) : a.apply pads contents key = none := by
  by_cases same : key = a.span.key
  · simp [apply, ← same, missing]
  · simp [apply, Function.update_of_ne same, missing]

theorem eq_read_of_span {off : UInt64} {n : Nat} (reads : a.span = .readRange key off n)
    : a = .read key off n := by
  cases a with
  | read =>
      cases reads
      rfl
  | write => cases reads
  | rewrite => cases reads

/-- A file that is there is changed by an access to it, and otherwise left alone. -/
theorem apply_some (stored : contents key = some data)
    : a.apply pads contents key = some (a.fileAfter pads key data) := by
  by_cases same : a.span.key = key
  · simp [apply, fileAfter, same, stored]
  · simp [apply, fileAfter, same, Function.update_of_ne (Ne.symm same), stored]

/-- A file reaches a point after an access in place if it did before or is written up to
there.
-/
theorem le_length_fileAfter (inPlace : a.inPlace = true) (x : Nat)
    : x ≤ (a.fileAfter pads key data).length
      ↔ x ≤ data.length
        ∨ ∃ start length, a.span = .writeRange key start length
            ∧ x ≤ reach pads start.toNat length := by
  cases a with
  | rewrite => cases inPlace
  | read =>
      unfold fileAfter
      split <;> simp [span, change]
  | write target off bytes =>
      by_cases same : target = key
      · simp [fileAfter, span, Span.key, change, same]
      · simp [fileAfter, span, Span.key, same]

/-- An access beside a READ's range that takes the file's end no further into it does not
change what the READ sees.
-/
theorem window_fileAfter {off : UInt64} {n : Nat}
    (apart : (Span.readRange key off n).conflicts a.span = false)
    (short : ∀ start length, a.span = .writeRange key start length
      → min (reach pads start.toNat length) (off.toNat + n) ≤ max off.toNat data.length)
    : window (a.fileAfter pads key data) off.toNat n = window data off.toNat n := by
  unfold fileAfter
  split
  · rename_i same
    cases a with
    | read => rfl
    | rewrite => simp_all [span, Span.conflicts, Span.writes, Span.range, Span.key]
    | write target start bytes =>
        obtain rfl : target = key := same
        refine window_writeAt ?_ (short start bytes.length rfl)
        simpa [span, Span.conflicts, Span.writes, Span.range, Span.key] using apart
  · rfl

end Access

section Folds

variable {pads : Bool} {jobs : List Job} {access : Fin jobs.length → Access}
  {contents : Contents} {key data : Bytes}

/-- The contents after the accesses of these jobs. -/
def accessed (pads : Bool) (access : Fin jobs.length → Access) (contents : Contents)
    (order : List (Fin jobs.length))
    : Contents :=
  order.foldl (fun contents i => (access i).apply pads contents) contents

/-- A file that is missing stays so. -/
theorem accessed_none (missing : contents key = none) (order : List (Fin jobs.length))
    : accessed pads access contents order key = none := by
  induction order generalizing contents with
  | nil => exact missing
  | cons i rest ih => exact ih (Access.apply_none missing)

/-- How far a file reaches after accesses in place, by induction on them. -/
theorem accessed_reaches (pads : Bool) (inPlace : ∀ i, (access i).inPlace = true)
    (stored : contents key = some data) (order : List (Fin jobs.length))
    : ∃ later, accessed pads access contents order key = some later
        ∧ ∀ x, x ≤ later.length
            ↔ x ≤ data.length
              ∨ ∃ i ∈ order, ∃ start length, (access i).span = .writeRange key start length
                  ∧ x ≤ reach pads start.toNat length := by
  induction order generalizing contents data with
  | nil => exact ⟨data, stored, by simp⟩
  | cons i rest ih =>
      obtain ⟨later, found, reaches⟩ := ih (Access.apply_some stored)
      refine ⟨later, found, fun x => ?_⟩
      rw [reaches, Access.le_length_fileAfter (inPlace i), or_assoc]
      simp only [List.exists_mem_cons_iff]

/-- Accesses beside a READ's range that take the file's end no further into it do not
change what the READ sees, by induction on them.
-/
theorem accessed_window {off : UInt64} {n : Nat} (pads : Bool)
    (inPlace : ∀ i, (access i).inPlace = true) (stored : contents key = some data)
    (order : List (Fin jobs.length))
    (apart : ∀ i ∈ order, (Span.readRange key off n).conflicts (access i).span = false)
    (short : ∀ i ∈ order, ∀ start length, (access i).span = .writeRange key start length
      → min (reach pads start.toNat length) (off.toNat + n) ≤ max off.toNat data.length)
    : ∃ later, accessed pads access contents order key = some later
        ∧ window later off.toNat n = window data off.toNat n := by
  induction order generalizing contents data with
  | nil => exact ⟨data, stored, rfl⟩
  | cons i rest ih =>
      -- An access in place never shortens the file, so what is short stays short.
      have grows : data.length ≤ ((access i).fileAfter pads key data).length :=
        (Access.le_length_fileAfter (inPlace i) _).mpr (Or.inl le_rfl)
      obtain ⟨later, found, same⟩ := ih (Access.apply_some stored)
        (fun j member => apart j (List.mem_cons_of_mem i member))
        (fun j member start length written =>
          (short j (List.mem_cons_of_mem i member) start length written).trans
            (max_le_max le_rfl grows))
      refine ⟨later, found, same.trans ?_⟩
      exact Access.window_fileAfter (apart i (by simp)) (short i (by simp))

end Folds

/-- READs that see the same bytes are answered alike. -/
theorem ContentDriver.readReply_congr {S : Type} (driver : ContentDriver S) {id : UInt32}
    {off : UInt64} {n : Nat} {left right : Bytes}
    (same : ¬maxInt64 < off → window left off.toNat n = window right off.toNat n)
    : driver.readReply id off n (some left) = driver.readReply id off n (some right) := by
  by_cases beyond : maxInt64 < off
  · simp [ContentDriver.readReply, beyond]
  · simp [ContentDriver.readReply, same beyond]

/-- READs that are answered alike have seen the same bytes. -/
theorem ContentDriver.window_eq_of_readReply {S : Type} {driver : ContentDriver S} {id : UInt32}
    {off : UInt64} {n : Nat} {left right : Bytes} (fits : ¬maxInt64 < off)
    (same : driver.readReply id off n (some left) = driver.readReply id off n (some right))
    : window left off.toNat n = window right off.toNat n := by
  simp only [ContentDriver.readReply, fits, false_or] at same
  split at same <;> split at same <;> simp_all [status]

section Replies

variable {S : Type} {driver : ContentDriver S} {jobs : List Job}
  {access : Fin jobs.length → Access} {id : Fin jobs.length → UInt32}
  (shapes : ∀ i, Shape driver.denotes (jobs.get i) (access i))
  (answers : ∀ i s, (driver.run s (jobs.get i)).1
    = driver.reply (id i) (access i) (driver.contents s (access i).span.key))

include shapes answers

/-- A job is answered by the contents its predecessors leave. -/
theorem replyTo_accessed {i : Fin jobs.length} {before after : List (Fin jobs.length)}
    (first : i ∉ before) (s : S)
    : driver.replyTo jobs s (before ++ i :: after) i
      = some (driver.reply (id i) (access i)
          (accessed driver.padsEmpty access (driver.contents s) before (access i).span.key)) := by
  rw [driver.replyTo_split first, answers, contents_runAll driver shapes]
  rfl

end Replies

theorem free_not_conflicting {jobs : List Job} {i j : Fin jobs.length} (free : Free jobs i j)
    : ¬Conflicting jobs j i := by
  intro conflicting
  rcases lt_or_gt_of_ne free.1 with less | greater
  · exact free.2.1 (.single ⟨less, conflicting_symm jobs j i conflicting⟩)
  · exact free.2.2 (.single ⟨greater, conflicting⟩)

open Classical in
/-- The jobs that must run before this one, in order of arrival. -/
noncomputable def required (jobs : List Job) (i : Fin jobs.length) : List (Fin jobs.length) :=
  (List.finRange jobs.length).filter fun j => MustPrecede (Conflicting jobs) j i

theorem mem_required {jobs : List Job} {i j : Fin jobs.length}
    : j ∈ required jobs i ↔ MustPrecede (Conflicting jobs) j i := by
  simp [required]

section Orders

variable {S : Type} {driver : ContentDriver S} {jobs : List Job}
  {access : Fin jobs.length → Access}
  (shapes : ∀ i, Shape driver.denotes (jobs.get i) (access i))
  {i : Fin jobs.length} {before after : List (Fin jobs.length)}
  (permitted : Permits jobs (before ++ i :: after))

include shapes permitted

/-- What a job finds: what must run before it has run, then jobs that are free. -/
theorem accessed_before (contents : Contents)
    : ∃ others, (∀ j ∈ others, Free jobs j i)
        ∧ accessed driver.padsEmpty access contents before
          = accessed driver.padsEmpty access
              (accessed driver.padsEmpty access contents (required jobs i)) others := by
  have sorted : (List.finRange jobs.length).Pairwise (· < ·) := List.pairwise_lt_finRange _
  refine ⟨_, ?_, permitted.foldl_before (access_comm driver shapes) (conflicting_symm jobs)
    sorted List.mem_finRange contents⟩
  intro j member
  simp only [List.mem_filter, List.mem_finRange, true_and, decide_eq_true_eq] at member
  refine ⟨?_, member.2, ?_⟩
  · intro same
    subst same
    exact permitted.item_notMem sorted member.1
  · exact permitted.not_must_of_mem sorted (conflicting_symm jobs) List.mem_finRange member.1

variable (inPlace : ∀ i, (access i).inPlace = true) {contents : Contents} {key data : Bytes}
  (stored : contents key = some data)

include inPlace stored

/-- A settled READ sees in every permitted order what those that must run before it leave.
-/
theorem window_of_settled {off : UInt64} {n : Nat}
    (settled : Settled driver.padsEmpty contents jobs i)
    (reads : (jobs.get i).span = .readRange key off n) (fits : ¬maxInt64 < off)
    {earlier later : Bytes}
    (present : accessed driver.padsEmpty access contents (required jobs i) key = some earlier)
    (found : accessed driver.padsEmpty access contents before key = some later)
    : window later off.toNat n = window earlier off.toNat n := by
  obtain ⟨others, free, split⟩ := accessed_before shapes permitted contents
  -- The free jobs do not conflict with the READ, so they write none of its bytes.
  have apart : ∀ j ∈ others,
      (Span.readRange key off n).conflicts (access j).span = false := by
    intro j member
    have separate := free_not_conflicting (free j member)
    rw [Conflicting, reads, (shapes j).span_eq] at separate
    simpa using separate
  have short : ∀ j ∈ others, ∀ start length, (access j).span = .writeRange key start length
      → min (reach driver.padsEmpty start.toNat length) (off.toNat + n)
        ≤ max off.toNat earlier.length := by
    intro j member start length written
    obtain ⟨same, again, reaches⟩ :=
      accessed_reaches driver.padsEmpty inPlace stored (required jobs i)
    obtain rfl : same = earlier := Option.some.inj (again.symm.trans present)
    rcases settled key off n data reads fits stored j start length
      ((shapes j).span_eq.trans written) (free j member)
      with already | ⟨m, start', length', must, writes, enough⟩
    · exact already.trans (max_le_max le_rfl ((reaches _).mpr (Or.inl le_rfl)))
    · have written := (shapes m).span_eq.symm.trans writes
      refine le_trans ((reaches _).mpr (Or.inr ?_)) (le_max_right _ _)
      exact ⟨m, mem_required.mpr must, start', length', written, enough⟩
  obtain ⟨seen, again, same⟩ :=
    accessed_window driver.padsEmpty inPlace present others apart short
  rw [← split] at again
  rw [← Option.some.inj (again.symm.trans found), same]

omit stored in
/-- A settled job is answered alike in every permitted order. -/
theorem reply_of_settled (settled : Settled driver.padsEmpty contents jobs i) (id : UInt32)
    : driver.reply id (access i)
        (accessed driver.padsEmpty access contents before (access i).span.key)
      = driver.reply id (access i)
        (accessed driver.padsEmpty access contents (required jobs i) (access i).span.key) := by
  cases stored : contents (access i).span.key with
  | none => rw [accessed_none stored, accessed_none stored]
  | some data =>
      obtain ⟨earlier, present, _⟩ :=
        accessed_reaches driver.padsEmpty inPlace stored (required jobs i)
      obtain ⟨later, found, _⟩ := accessed_reaches driver.padsEmpty inPlace stored before
      have span := (shapes i).span_eq
      rw [found, present]
      generalize access i = kind at *
      cases kind with
      | read key off n =>
          exact driver.readReply_congr fun fits =>
            window_of_settled shapes permitted inPlace stored settled span fits present found
      | write => rfl
      | rewrite => rfl

end Orders

open Classical in
/-- The jobs that need not run after this one, in order of arrival. -/
noncomputable def optional (jobs : List Job) (i : Fin jobs.length) : List (Fin jobs.length) :=
  (List.finRange jobs.length).filter fun j =>
    ¬(j = i ∨ MustPrecede (Conflicting jobs) i j)

/-- A READ that sees the same bytes right after what must run before it and after all that
need not run after it is settled: between the two, every free WRITE has run.
-/
theorem settled_of_window {pads : Bool} {jobs : List Job} {access : Fin jobs.length → Access}
    (spans : ∀ i, (jobs.get i).span = (access i).span)
    (inPlace : ∀ i, (access i).inPlace = true) {contents : Contents} {r : Fin jobs.length}
    (same : ∀ key off n earlier later,
      (jobs.get r).span = .readRange key off n → ¬maxInt64 < off
      → accessed pads access contents (required jobs r) key = some earlier
      → accessed pads access contents (optional jobs r) key = some later
      → window earlier off.toNat n = window later off.toNat n)
    : Settled pads contents jobs r := by
  intro key off n data reads fits stored w start length writes free
  obtain ⟨earlier, present, reaches⟩ := accessed_reaches pads inPlace stored (required jobs r)
  obtain ⟨later, found, grows⟩ := accessed_reaches pads inPlace stored (optional jobs r)
  have lengths := congrArg List.length (same key off n earlier later reads fits present found)
  rw [length_window, length_window] at lengths
  have ran : w ∈ optional jobs r := by simp [optional, free.1, free.2.2]
  have far : reach pads start.toNat length ≤ later.length :=
    (grows _).mpr (Or.inr ⟨w, ran, start, length, (spans w).symm.trans writes, le_rfl⟩)
  -- The windows have one length, so the earlier file is long enough, or the READ sees
  -- nothing of the WRITE.
  have reached : min (reach pads start.toNat length) (off.toNat + n) ≤ off.toNat
      ∨ min (reach pads start.toNat length) (off.toNat + n) ≤ earlier.length := by
    omega
  rcases reached with short | long
  · exact Or.inl (short.trans (le_max_left _ _))
  rcases (reaches _).mp long with already | ⟨m, must, start', length', written, enough⟩
  · exact Or.inl (already.trans (le_max_right _ _))
  · exact Or.inr ⟨m, start', length', mem_required.mp must, (spans m).trans written, enough⟩

/-- READs in flight are answered as if the jobs ran one at a time, in every permitted
order, exactly if they are all settled.
-/
theorem read_replies_iff {S : Type} (driver : ContentDriver S) {srv : Server}
    {jobs : List Job}
    (issued : ∀ job ∈ jobs, Issued srv (fun t => t.Denotes driver.denotes ∧ t.Positional) job)
    (s : S)
    : (∀ order, Permits jobs order
        → ∀ i, driver.replyTo jobs s order i
            = driver.replyTo jobs s (List.finRange jobs.length) i)
      ↔ ∀ r, Settled driver.padsEmpty (driver.contents s) jobs r := by
  choose id access shapes inPlace answers using
    fun i => (issued (jobs.get i) (List.get_mem jobs i)).inPlace driver
  have sorted : (List.finRange jobs.length).Pairwise (· < ·) := List.pairwise_lt_finRange _
  have answered {i : Fin jobs.length} {before after : List (Fin jobs.length)}
      (permitted : Permits jobs (before ++ i :: after))
      : driver.replyTo jobs s (before ++ i :: after) i
        = some (driver.reply (id i) (access i)
            (accessed driver.padsEmpty access (driver.contents s) before (access i).span.key)) :=
    replyTo_accessed shapes answers (permitted.item_notMem sorted) s
  constructor
  · intro alike r
    -- Two permitted orders tell: one with as little before the READ as possible, and one
    -- with as much.
    obtain ⟨_, least⟩ :=
      exists_permitted_least sorted (List.mem_finRange r) (conflicting_symm jobs)
    obtain ⟨_, most⟩ :=
      exists_permitted_most sorted (List.mem_finRange r) (conflicting_symm jobs)
    have same := (alike _ least r).trans (alike _ most r).symm
    rw [answered least, answered most] at same
    refine settled_of_window (fun i => (shapes i).span_eq) inPlace ?_
    intro key off n earlier later reads fits present found
    have kind : access r = .read key off n :=
      Access.eq_read_of_span ((shapes r).span_eq.symm.trans reads)
    rw [kind] at same
    have replies : driver.readReply (id r) off n
          (accessed driver.padsEmpty access (driver.contents s) (required jobs r) key)
        = driver.readReply (id r) off n
          (accessed driver.padsEmpty access (driver.contents s) (optional jobs r) key) :=
      Option.some.inj same
    rw [present, found] at replies
    exact ContentDriver.window_eq_of_readReply fits replies
  · intro settled order permitted i
    -- In every permitted order the reply is the one after what must run before, so also in
    -- order of arrival.
    have placed (order : List (Fin jobs.length)) (permitted : Permits jobs order)
        : driver.replyTo jobs s order i
          = some (driver.reply (id i) (access i) (accessed driver.padsEmpty access
              (driver.contents s) (required jobs i) (access i).span.key)) := by
      obtain ⟨before, after, rfl⟩ :=
        List.append_of_mem (permitted.all.symm.subset (List.mem_finRange i))
      rw [answered permitted, reply_of_settled shapes permitted inPlace (settled i)]
    rw [placed order permitted, placed _ (permitted_refl sorted)]

/-- The job of a READ of four bytes at the start of `/a`. -/
def sharedRead : Job where
  span := .readRange [0x2f, 0x61] 0 4
  run := lockedIo (readAt 1 { id := 0, isWritable := true } 0 4)

/-- A READ of the first four bytes and a WRITE behind them, in flight together. -/
abbrev readBesideWrite : List Job := [sharedRead, sharedWrite 4 [7]]

theorem readBesideWrite_issued
    : ∀ job ∈ readBesideWrite, Issued sharedServer
        (fun t => t.Denotes (memory fun _ => [0x2f, 0x61]).denotes ∧ t.Positional) job := by
  have positional : sharedTable.Positional := by
    intro h member _
    have only : h = _ := List.mem_singleton.mp member
    rw [only]
    exact ⟨rfl, fun _ => rfl⟩
  have table := And.intro sharedTable_denotes positional
  intro job member
  rcases List.mem_pair.mp member with rfl | rfl
  · exact .read sharedTable { id := 1, handle := [1], offset := 0, length := 4 } table rfl
  · exact .write sharedTable { id := 1, handle := [1], offset := 4, data := [7] } table rfl

/-- On an empty file the READ is answered EOF in order of arrival, and with four zeros if
the WRITE runs first, which is permitted.
-/
theorem read_reply_depends_on_order
    : (∀ job ∈ readBesideWrite, Issued sharedServer
        (fun t => t.Denotes (memory fun _ => [0x2f, 0x61]).denotes ∧ t.Positional) job)
      ∧ Permits readBesideWrite [1, 0]
      ∧ (memory fun _ => [0x2f, 0x61]).replyTo readBesideWrite (fun _ => some []) [0, 1] 0
        = some (status 1 statusEOF [])
      ∧ (memory fun _ => [0x2f, 0x61]).replyTo readBesideWrite (fun _ => some []) [1, 0] 0
        = some (.dataReply { id := 1, data := [0, 0, 0, 0] }) :=
  ⟨readBesideWrite_issued, ⟨by decide, by decide⟩, by decide, by decide⟩

/-- On a file of four bytes the order does not matter. -/
theorem read_replies_settled
    : Permits readBesideWrite [1, 0]
      ∧ ∀ order, Permits readBesideWrite order
          → ∀ i, (memory fun _ => [0x2f, 0x61]).replyTo readBesideWrite
                (fun _ => some [1, 2, 3, 4]) order i
              = (memory fun _ => [0x2f, 0x61]).replyTo readBesideWrite
                (fun _ => some [1, 2, 3, 4]) (List.finRange 2) i := by
  refine ⟨⟨by decide, by decide⟩, ?_⟩
  refine (read_replies_iff (memory fun _ => [0x2f, 0x61]) readBesideWrite_issued _).mpr ?_
  intro r key off n data reads _ stored w start length writes _
  obtain rfl : [1, 2, 3, 4] = data := Option.some.inj stored
  left
  rcases List.mem_pair.mp (List.get_mem readBesideWrite r) with first | second
  · rw [first] at reads
    cases reads
    rcases List.mem_pair.mp (List.get_mem readBesideWrite w) with first | second
    · rw [first] at writes
      cases writes
    · rw [second] at writes
      cases writes
      decide
  · rw [second] at reads
    cases reads

end SftpServer.Sftp
