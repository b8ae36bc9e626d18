import SftpServer.Correctness.FileService

/-! A driver whose open files follow the file they were opened on. What is at a path is an object,
and an open file is an object. One that is renamed or removed while it is open is at another path
then, or at none, and is read and written all the same.
-/

namespace SftpServer.Sftp

open SftpServer.Foundations
open SftpServer.Wire

/-- Objects with their data, and which of them is at a path. No object is at two paths, and those
from `next` on are at none.
-/
structure Objects where
  object : Bytes → Option Nat
  data : Nat → Bytes
  next : Nat
  single : ∀ {path other n}, object path = some n → object other = some n → path = other
  used : ∀ {path n}, object path = some n → n < next

namespace Objects

variable {s : Objects} {path : Bytes} {n : Nat}

def contents (s : Objects) : Contents := fun path => (s.object path).map s.data

def write (s : Objects) (n : Nat) (bytes : Bytes) : Objects :=
  { s with data := Function.update s.data n bytes }

/-- A new object is put at a path. -/
def create (s : Objects) (path bytes : Bytes) : Objects where
  object := Function.update s.object path (some s.next)
  data := Function.update s.data s.next bytes
  next := s.next + 1
  single {first second n} one two := by
    rw [Function.update_apply] at one two
    split_ifs at one two with here there there
    · exact here.trans there.symm
    · cases one
      exact absurd (s.used two) (Nat.lt_irrefl _)
    · cases two
      exact absurd (s.used one) (Nat.lt_irrefl _)
    · exact s.single one two
  used {other n} found := by
    rw [Function.update_apply] at found
    split_ifs at found
    · cases found
      exact Nat.lt_succ_self _
    · exact Nat.lt_succ_of_lt (s.used found)

/-- The object at a path is there no more. -/
def remove (s : Objects) (path : Bytes) : Objects where
  object := Function.update s.object path none
  data := s.data
  next := s.next
  single {first second n} one two := by
    rw [Function.update_apply] at one two
    split_ifs at one two
    exact s.single one two
  used {other n} found := by
    rw [Function.update_apply] at found
    split_ifs at found
    exact s.used found

/-- The object at a path comes to another. -/
def move (s : Objects) (oldPath newPath : Bytes) : Objects where
  object := Function.update (Function.update s.object oldPath none) newPath (s.object oldPath)
  data := s.data
  next := s.next
  single {first second n} one two := by
    simp only [Function.update_apply] at one two
    split_ifs at one two with here there gone there gone
    · exact here.trans there.symm
    · exact absurd (s.single two one) gone
    · exact absurd (s.single one two) ‹_›
    · exact s.single one two
  used {other n} found := by
    simp only [Function.update_apply] at found
    split_ifs at found
    · exact s.used found
    · exact s.used found

theorem contents_of_object (here : s.object path = some n)
    : s.contents path = some (s.data n) := by
  rw [contents, here]
  rfl

theorem contents_write (bytes : Bytes) (here : s.object path = some n)
    : (s.write n bytes).contents = Function.update s.contents path (some bytes) := by
  funext other
  rw [Function.update_apply]
  split_ifs with same
  · subst same
    simp [contents, write, here]
  · cases there : s.object other with
    | none => simp [contents, write, there]
    | some m =>
        have apart : m ≠ n := by
          rintro rfl
          exact same (s.single there here)
        simp [contents, write, there, Function.update_of_ne apart]

theorem contents_create (s : Objects) (path bytes : Bytes)
    : (s.create path bytes).contents = Function.update s.contents path (some bytes) := by
  funext other
  rw [Function.update_apply]
  split_ifs with same
  · subst same
    simp [contents, create]
  · cases there : s.object other with
    | none => simp [contents, create, there, Function.update_of_ne same]
    | some m =>
        have apart : m ≠ s.next := (s.used there).ne
        simp [contents, create, there, Function.update_of_ne same, Function.update_of_ne apart]

theorem contents_remove (s : Objects) (path : Bytes)
    : (s.remove path).contents = Function.update s.contents path none := by
  funext other
  simp only [contents, remove, Function.update_apply]
  split_ifs <;> rfl

theorem contents_move (s : Objects) (oldPath newPath : Bytes)
    : (s.move oldPath newPath).contents
      = Function.update (Function.update s.contents oldPath none) newPath (s.contents oldPath) := by
  funext other
  simp only [contents, move, Function.update_apply]
  split_ifs <;> rfl

/-- What a call on a path does to the object there, and one on an open file to that object. -/
def serve (s : Objects) : (call : DriverCall) → call.Answer × Objects
  | .stat path =>
      match s.contents path with
      | some data => (.ok (some { mode := 0o644, size := .ofNat data.length }), s)
      | none => (.error { isNotExist := true, message := [] }, s)
  | .readFile path =>
      match s.contents path with
      | some data => (.ok data, s)
      | none => (.error { isNotExist := true, message := [] }, s)
  | .writeFile path data _ =>
      match s.object path with
      | some n => (none, s.write n data)
      | none => (none, s.create path data)
  | .deleteFile path => (none, s.remove path)
  | .rename oldPath newPath => (none, s.move oldPath newPath)
  | .truncate path size =>
      match s.object path with
      | some n => (none, s.write n (resize 0 (s.data n) size.toInt.toNat))
      | none => (some { isNotExist := true, message := [] }, s)
  | .openFile path => (.ok ((s.object path).map fun n => { id := n, isWritable := true }), s)
  | .fileReadAt file n off =>
      ((window (s.data file.id) off.toInt.toNat n,
        if off.toInt.toNat + n ≤ (s.data file.id).length then none
        else some { isEOF := true, message := [] }), s)
  | .fileSize file => (Int64.ofNat (s.data file.id).length, s)
  | .fileWriteAt file data off =>
      (none, s.write file.id (writeAt false 0 (s.data file.id) off.toInt.toNat data))
  | .fileTruncate file size =>
      (none, s.write file.id (resize 0 (s.data file.id) size.toInt.toNat))
  | .copyRange dst src dstOff srcOff n =>
      (none, s.write dst.id (writeAt false 0 (s.data dst.id) dstOff.toInt.toNat
        (window (s.data src.id) srcOff.toInt.toNat n.toInt.toNat)))
  | call => (call.success, s)

end Objects

/-- Objects are a driver that does what it reports. -/
def objectFiles : HonestStore Objects where
  serve := Objects.serve
  random s := (.ok (Vector.replicate handleBytes 0), s)
  contents := Objects.contents
  serve_keeps s call steady := by
    cases call with
    | stat | readFile =>
        simp only [Objects.serve]
        split <;> rfl
    | writeFile | deleteFile | rename | truncate | fileWriteAt | fileTruncate | copyRange =>
        cases steady
    | _ => rfl
  random_keeps _ := rfl
  reads s path data found := by
    simp only [Objects.serve] at found
    cases stored : s.contents path <;> simp_all
  writes s path data _ _ := by
    simp only [Objects.serve]
    split
    · exact Objects.contents_write data ‹_›
    · exact Objects.contents_create s path data
  isAt s file path := s.object path = some file.id
  follows := true
  opens s path file opened := by
    simp only [Objects.serve, Except.ok.injEq, Option.map_eq_some_iff] at opened
    obtain ⟨n, found, rfl⟩ := opened
    exact found
  stays s call file path spared here := by
    have apart {top : Bytes} (moved : top ∈ call.moves) : path ≠ top := by
      rintro rfl
      exact spared rfl path moved (below_refl path)
    cases call with
    | deleteFile =>
        exact (Function.update_of_ne (apart (List.mem_singleton_self _)) ..).trans here
    | rename oldPath newPath =>
        have new := apart (List.mem_cons_of_mem _ (List.mem_singleton_self _))
        have old := apart (List.mem_cons_self ..)
        exact ((Function.update_of_ne new ..).trans (Function.update_of_ne old ..)).trans here
    | writeFile other =>
        simp only [Objects.serve]
        split
        · exact here
        · rename_i absent
          have other : path ≠ other := by
            rintro rfl
            cases absent.symm.trans here
          exact (Function.update_of_ne other ..).trans here
    | stat | readFile | truncate =>
        simp only [Objects.serve]
        split <;> exact here
    | _ => exact here
  random_stays _ _ _ here := here
  sizes s file path data here stored small := by
    cases (Objects.contents_of_object here).symm.trans stored
    exact Int64.toInt_ofNat_of_lt small
  writesAt s file path data off position old here placed stored _ := by
    cases (Objects.contents_of_object here).symm.trans stored
    simp only [Objects.serve, placed, Int.ofNat_eq_natCast, Int.toNat_natCast]
    exact ⟨false, Objects.contents_write _ here⟩
  truncates s file path size length old here sized stored _ := by
    cases (Objects.contents_of_object here).symm.trans stored
    simp only [Objects.serve, sized, Int.ofNat_eq_natCast, Int.toNat_natCast]
    exact Objects.contents_write _ here
  copies s dst src path origin dstOff srcOff n target source count old data here there starts
      comes counts stored found _ _ := by
    cases (Objects.contents_of_object here).symm.trans stored
    cases (Objects.contents_of_object there).symm.trans found
    simp only [Objects.serve, starts, comes, counts, Int.ofNat_eq_natCast, Int.toNat_natCast]
    exact Objects.contents_write _ here
  keepsOthers s call tops path confined apart := by
    have other {top : Bytes} (named : top ∈ tops) : path ≠ top := by
      rintro rfl
      exact apart path named (below_refl path)
    cases call with
    | writeFile top data =>
        simp only [Objects.serve]
        split
        · rw [Objects.contents_write data ‹_›]
          exact Function.update_of_ne (other confined) ..
        · rw [Objects.contents_create]
          exact Function.update_of_ne (other confined) ..
    | truncate =>
        simp only [Objects.serve]
        split
        · rw [Objects.contents_write _ ‹_›]
          exact Function.update_of_ne (other confined) ..
        · rfl
    | fileWriteAt | fileTruncate | copyRange =>
        obtain ⟨top, named, here⟩ := confined
        simp only [Objects.serve]
        rw [Objects.contents_write _ here]
        exact Function.update_of_ne (other named) ..
    | deleteFile =>
        simp only [Objects.serve, Objects.contents_remove]
        exact Function.update_of_ne (other confined) ..
    | rename oldPath newPath =>
        simp only [Objects.serve, Objects.contents_move]
        exact (Function.update_of_ne (other confined.2) ..).trans
          (Function.update_of_ne (other confined.1) ..)
    | stat | readFile =>
        simp only [Objects.serve]
        split <;> rfl
    | _ => rfl
  readsAt s file path n off position data here placed stored := by
    cases (Objects.contents_of_object here).symm.trans stored
    simp only [Objects.serve, placed, Int.ofNat_eq_natCast, Int.toNat_natCast]
    exact ⟨List.prefix_rfl, fun nothing _ => nothing⟩
  resizes s path size length old sized stored _ := by
    cases found : s.object path with
    | none => simp [Objects.contents, found] at stored
    | some n =>
        cases (Objects.contents_of_object found).symm.trans stored
        simp only [Objects.serve, found, sized, Int.ofNat_eq_natCast, Int.toNat_natCast]
        exact Objects.contents_write _ found
  removes s path _ := by
    simp only [Objects.serve, Objects.contents_remove]
    exact Function.update_self ..
  renames s oldPath newPath _ := by
    simp only [Objects.serve, Objects.contents_move]
    refine ⟨Function.update_self .., fun apart => ?_⟩
    exact (Function.update_of_ne apart ..).trans (Function.update_self ..)

/-- A file that is renamed while it is open is the one at the new path. -/
theorem objectFiles_follow {s : Objects} {file : File} {oldPath : Bytes} (newPath : Bytes)
    (here : objectFiles.isAt s file oldPath)
    : objectFiles.isAt (objectFiles.serve s (.rename oldPath newPath)).2 file newPath :=
  (Function.update_self ..).trans here

/-- One object, at `/a`. -/
def oneObject (content : Bytes) : Objects where
  object path := if path = [0x2f, 0x61] then some 0 else none
  data _ := content
  next := 1
  single {path other n} one two := by
    split_ifs at one two with here there
    exact here.trans there.symm
  used {path n} found := by
    split_ifs at found
    cases found
    exact Nat.one_pos

end SftpServer.Sftp
