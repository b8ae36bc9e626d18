import SftpServer.Concurrency.Jobs

/-! Writes in flight together lose nothing: in every order that keeps the conflicting pairs
as they arrived, the files end as they do when the jobs run one at a time.
-/

namespace SftpServer.Sftp

open SftpServer.Foundations
open SftpServer.Wire

/-- The spans of these two jobs conflict. -/
def Conflicting (jobs : List Job) (i j : Fin jobs.length) : Prop :=
  (jobs.get i).span.conflicts (jobs.get j).span = true

instance (jobs : List Job) (i j : Fin jobs.length) : Decidable (Conflicting jobs i j) :=
  inferInstanceAs (Decidable (_ = _))

theorem conflicting_symm (jobs : List Job) (i j : Fin jobs.length)
    (conflicting : Conflicting jobs i j)
    : Conflicting jobs j i := by
  unfold Conflicting at *
  rw [Span.conflicts_comm]
  exact conflicting

/-- An order in which the jobs may run: all of them, each conflicting pair as it arrived. -/
abbrev Permits (jobs : List Job) (order : List (Fin jobs.length)) : Prop :=
  Permitted (Conflicting jobs) (List.finRange jobs.length) order

section Accesses

variable {S : Type} (driver : ContentDriver S) {jobs : List Job}
  {access : Fin jobs.length → Access}
  (shapes : ∀ i, Shape driver.denotes (jobs.get i) (access i))

include shapes

/-- Running jobs applies their accesses, by induction on the order. -/
theorem contents_runAll (order : List (Fin jobs.length)) (s : S)
    : driver.contents (driver.runAll s (order.map jobs.get))
      = order.foldl (fun contents i => (access i).apply driver.padsEmpty contents)
          (driver.contents s) := by
  induction order generalizing s with
  | nil => rfl
  | cons i rest ih =>
      have first := performs_of_shape driver (shapes i) s
      have later := ih (driver.run s (jobs.get i)).2
      rw [first] at later
      exact later

/-- The accesses of jobs that do not conflict commute. -/
theorem access_comm (i j : Fin jobs.length) (contents : Contents)
    (apart : ¬Conflicting jobs i j)
    : (access j).apply driver.padsEmpty ((access i).apply driver.padsEmpty contents)
      = (access i).apply driver.padsEmpty ((access j).apply driver.padsEmpty contents) := by
  apply Access.apply_comm
  rw [← (shapes i).span_eq, ← (shapes j).span_eq]
  simpa [Conflicting] using apart

end Accesses

/-- Whatever permitted order the jobs in flight run in, every file ends as it does when
they run one at a time in order of arrival.
-/
theorem writes_lose_nothing {S : Type} (driver : ContentDriver S) {srv : Server}
    {jobs : List Job}
    (issued : ∀ job ∈ jobs, Issued srv (fun t => t.Denotes driver.denotes) job)
    {order : List (Fin jobs.length)} (permitted : Permits jobs order) (s : S)
    : driver.contents (driver.runAll s (order.map jobs.get))
      = driver.contents (driver.runAll s jobs) := by
  -- Each job is an access; the orders of accesses are compared, not those of jobs.
  choose access shapes using fun i => (issued (jobs.get i) (List.get_mem jobs i)).shape
  have arrival : jobs = (List.finRange jobs.length).map jobs.get :=
    (List.map_get_finRange jobs).symm
  have sorted : (List.finRange jobs.length).Pairwise (· < ·) := List.pairwise_lt_finRange _
  calc driver.contents (driver.runAll s (order.map jobs.get))
      = order.foldl _ (driver.contents s) := contents_runAll driver shapes order s
    _ = (List.finRange jobs.length).foldl _ (driver.contents s) :=
        permitted.foldl_eq (access_comm driver shapes) sorted _
    _ = driver.contents (driver.runAll s ((List.finRange jobs.length).map jobs.get)) :=
        (contents_runAll driver shapes _ s).symm
    _ = driver.contents (driver.runAll s jobs) := by rw [← arrival]

/-- A writable export of a driver that opens files. -/
def sharedServer : Server where
  opener := true
  symlinker := false
  truncater := false
  metadataSetter := false
  ro := false

/-- A table with one handle: `/a`, open for reading and writing in place. -/
def sharedTable : Handles :=
  AList.insert [1]
    {
      path := [0x2f, 0x61]
      file := some { id := 0, isWritable := true }
      writable := some { id := 0, isWritable := true }
      write := true
    }
    ∅

/-- The job of a WRITE of these bytes at this offset of `/a`. -/
def sharedWrite (off : UInt64) (data : Bytes) : Job where
  span := .writeRange [0x2f, 0x61] off data.length
  run := lockedIo (statusOf 1
    (File.writeAt { id := 0, isWritable := true } data off.toInt64) statusFailure)

theorem sharedTable_denotes : sharedTable.Denotes fun _ => [0x2f, 0x61] := by
  intro h member file _
  have only : h = _ := List.mem_singleton.mp member
  rw [only]

theorem sharedWrite_issued (off : UInt64) (data : Bytes) (fits : ¬maxInt64 < off)
    : Issued sharedServer (fun t => t.Denotes fun _ => [0x2f, 0x61])
        (sharedWrite off data) := by
  have prepared : writeJob sharedServer sharedTable
        { id := 1, handle := [1], offset := off, data }
      = (some (sharedWrite off data), none) := if_neg fits
  exact .write sharedTable _ sharedTable_denotes prepared

/-- Two WRITEs beside each other, the later one first. -/
theorem writes_lose_nothing_swapped
    : Permits [sharedWrite 0 [8, 9], sharedWrite 2 [7]] [1, 0]
      ∧ (memory fun _ => [0x2f, 0x61]).contents
          ((memory fun _ => [0x2f, 0x61]).runAll (fun _ => some [])
            [sharedWrite 2 [7], sharedWrite 0 [8, 9]])
        = (memory fun _ => [0x2f, 0x61]).contents
          ((memory fun _ => [0x2f, 0x61]).runAll (fun _ => some [])
            [sharedWrite 0 [8, 9], sharedWrite 2 [7]]) := by
  have permitted : Permits [sharedWrite 0 [8, 9], sharedWrite 2 [7]] [1, 0] :=
    ⟨by decide, by decide⟩
  have issued : ∀ job ∈ [sharedWrite 0 [8, 9], sharedWrite 2 [7]],
      Issued sharedServer (fun t => t.Denotes (memory fun _ => [0x2f, 0x61]).denotes) job := by
    intro job member
    rcases List.mem_pair.mp member with rfl | rfl
    · exact sharedWrite_issued 0 [8, 9] (by decide)
    · exact sharedWrite_issued 2 [7] (by decide)
  exact ⟨permitted, writes_lose_nothing (memory fun _ => [0x2f, 0x61]) issued permitted _⟩

end SftpServer.Sftp
