import SftpServer.Concurrency.Jobs
import SftpServer.Correctness.OpenEffects

/-! Drivers that may fail, and whose calls do what they report when they succeed. What a call
that fails leaves behind is not said.
-/

namespace SftpServer.Sftp

open SftpServer.Foundations
open SftpServer.Wire

/-- To a store that serves one request at a time locks are nothing. -/
theorem FileStore.exec_withLock {State α : Type} (store : FileStore State) (s : State)
    {acquire release : LockOp} (body : Prog α)
    : Interaction.exec store.respond s (withLock acquire release body)
      = Interaction.exec store.respond s body :=
  exec_withLock_of_free (fun _ _ => rfl) s body

/-- A store whose `ReadFile` and `WriteFile` do what they report. -/
structure PathStore (State : Type) extends FileStore State where
  reads : ∀ s path data, (serve s (.readFile path)).1 = .ok data → contents s path = some data
  writes : ∀ s path data perm, (serve s (.writeFile path data perm)).1 = none
    → contents (serve s (.writeFile path data perm)).2
      = Function.update (contents s) path (some data)

/-- A store that opens files as well. An open file is the file at the path it `denotes`;
`WriteAt` of nothing leaves it as it is, and `Truncate` grows it with zeros.
-/
structure OpenStore (State : Type) extends PathStore State where
  denotes : File → Bytes
  opens : ∀ s path file, (serve s (.openFile path)).1 = .ok (some file) → denotes file = path
  sizes : ∀ s file data, contents s (denotes file) = some data → data.length < 2 ^ 63
    → Int64.toInt (serve s (.fileSize file)).1 = Int.ofNat data.length
  writesAt : ∀ s file data off position old, off.toInt = Int.ofNat position
    → contents s (denotes file) = some old
    → (serve s (.fileWriteAt file data off)).1 = none
    → contents (serve s (.fileWriteAt file data off)).2
      = Function.update (contents s) (denotes file) (some (writeAt false 0 old position data))
  truncates : ∀ s file size length old, size.toInt = Int.ofNat length
    → contents s (denotes file) = some old
    → (serve s (.fileTruncate file size)).1 = none
    → contents (serve s (.fileTruncate file size)).2
      = Function.update (contents s) (denotes file) (some (resize 0 old length))
  copies : ∀ s dst src dstOff srcOff n target source count old data,
    dstOff.toInt = Int.ofNat target → srcOff.toInt = Int.ofNat source → n.toInt = Int.ofNat count
    → contents s (denotes dst) = some old → contents s (denotes src) = some data
    → (window data source count).length = count
    → (serve s (.copyRange dst src dstOff srcOff n)).1 = none
    → contents (serve s (.copyRange dst src dstOff srcOff n)).2
      = Function.update (contents s) (denotes dst)
          (some (writeAt false 0 old target (window data source count)))

/-- One path is another or lies below it. -/
def Below (top path : Bytes) : Prop := components top <+: components path

instance (top path : Bytes) : Decidable (Below top path) :=
  inferInstanceAs (Decidable (_ <+: _))

theorem below_refl (path : Bytes) : Below path path := List.prefix_rfl

/-- The paths at or below which a call may take a file away or put another in its place. -/
def DriverCall.moves : DriverCall → List Bytes
  | .mkDir path _ | .deleteFile path | .deleteDir path | .symlink _ path => [path]
  | .rename oldPath newPath => [oldPath, newPath]
  | .stat _ | .readFile _ | .writeFile _ _ _ | .listDir _ | .readLink _ | .truncate _ _
  | .chmod _ _ | .chown _ _ _ | .chtimes _ _ _ | .openFile _ | .fileReadAt _ _ _
  | .fileWriteAt _ _ _ | .fileSize _ | .fileTruncate _ _ | .fileSync _ | .fileClose _
  | .copyRange _ _ _ _ _ => []

/-- A store that opens files as well, and in which an open file may be moved. A file that was
opened is the one at its path. It stays that file, unless open files follow the file they were
opened on and a call moves what is at the path or above it. `Truncate` grows a file with zeros;
whether `WriteAt` of nothing past the end does is not said.
-/
structure PlacedStore (State : Type) extends PathStore State where
  isAt : State → File → Bytes → Prop
  follows : Bool
  opens : ∀ s path file, (serve s (.openFile path)).1 = .ok (some file)
    → isAt (serve s (.openFile path)).2 file path
  stays : ∀ s call file path, (follows = true → ∀ top ∈ call.moves, ¬Below top path)
    → isAt s file path → isAt (serve s call).2 file path
  random_stays : ∀ s file path, isAt s file path → isAt (random s).2 file path
  sizes : ∀ s file path data, isAt s file path
    → contents s path = some data → data.length < 2 ^ 63
    → Int64.toInt (serve s (.fileSize file)).1 = Int.ofNat data.length
  writesAt : ∀ s file path data off position old, isAt s file path
    → off.toInt = Int.ofNat position → contents s path = some old
    → (serve s (.fileWriteAt file data off)).1 = none
    → ∃ pads, contents (serve s (.fileWriteAt file data off)).2
      = Function.update (contents s) path (some (writeAt pads 0 old position data))
  truncates : ∀ s file path size length old, isAt s file path
    → size.toInt = Int.ofNat length → contents s path = some old
    → (serve s (.fileTruncate file size)).1 = none
    → contents (serve s (.fileTruncate file size)).2
      = Function.update (contents s) path (some (resize 0 old length))
  copies : ∀ s dst src path origin dstOff srcOff n target source count old data,
    isAt s dst path → isAt s src origin
    → dstOff.toInt = Int.ofNat target → srcOff.toInt = Int.ofNat source
    → n.toInt = Int.ofNat count
    → contents s path = some old → contents s origin = some data
    → (window data source count).length = count
    → (serve s (.copyRange dst src dstOff srcOff n)).1 = none
    → contents (serve s (.copyRange dst src dstOff srcOff n)).2
      = Function.update (contents s) path
          (some (writeAt false 0 old target (window data source count)))

/-- Files that go by the path they were opened at cannot be moved. -/
def OpenStore.placed {State : Type} (store : OpenStore State) : PlacedStore State where
  toPathStore := store.toPathStore
  isAt _ file path := store.denotes file = path
  follows := false
  opens := store.opens
  stays _ _ _ _ _ here := here
  random_stays _ _ _ here := here
  sizes s file _ data here := by
    subst here
    exact store.sizes s file data
  writesAt s file _ data off position old here placed stored wrote := by
    subst here
    exact ⟨false, store.writesAt s file data off position old placed stored wrote⟩
  truncates s file _ size length old here := by
    subst here
    exact store.truncates s file size length old
  copies s dst src _ _ dstOff srcOff n target source count old data here there := by
    subst here there
    exact store.copies s dst src dstOff srcOff n target source count old data

/-- Contents that serve calls on themselves; what is not about contents, `others` answers. -/
def Contents.serve (others : (call : DriverCall) → call.Answer) (denotes : File → Bytes)
    (contents : Contents) : (call : DriverCall) → call.Answer × Contents
  | .readFile path =>
      match contents path with
      | some data => (.ok data, contents)
      | none => (.error { isNotExist := true, message := [] }, contents)
  | .writeFile path data _ => (none, Function.update contents path (some data))
  | .fileSize file => (Int64.ofNat ((contents (denotes file)).elim 0 List.length), contents)
  | .fileWriteAt file data off =>
      (none, Function.update contents (denotes file)
        ((contents (denotes file)).map fun old => writeAt false 0 old off.toInt.toNat data))
  | .fileTruncate file size =>
      (none, Function.update contents (denotes file)
        ((contents (denotes file)).map fun old => resize 0 old size.toInt.toNat))
  | .copyRange dst src dstOff srcOff n =>
      (none, Function.update contents (denotes dst)
        ((contents (denotes dst)).map fun old => writeAt false 0 old dstOff.toInt.toNat
          (window ((contents (denotes src)).getD []) srcOff.toInt.toNat n.toInt.toNat)))
  | call => (others call, contents)

/-- Files in memory. -/
def memoryStore (others : (call : DriverCall) → call.Answer) (denotes : File → Bytes)
    (opens : ∀ path file, others (.openFile path) = .ok (some file) → denotes file = path)
    : OpenStore Contents where
  serve := Contents.serve others denotes
  random contents := (.ok (Vector.replicate handleBytes 0), contents)
  contents := id
  serve_keeps contents call steady := by
    cases call with
    | readFile path =>
        simp only [Contents.serve]
        split <;> rfl
    | writeFile | fileWriteAt | fileTruncate | copyRange => cases steady
    | _ => rfl
  random_keeps _ := rfl
  reads contents path data found := by
    simp only [Contents.serve] at found
    cases stored : contents path <;> simp_all
  writes _ _ _ _ _ := rfl
  denotes := denotes
  opens _ path file := opens path file
  sizes contents file data stored small := by
    have length : (contents (denotes file)).elim 0 List.length = data.length := by
      rw [show contents (denotes file) = some data from stored]
      rfl
    simp only [Contents.serve, length]
    exact Int64.toInt_ofNat_of_lt small
  writesAt contents file data off position old placed stored _ := by
    simp only [Contents.serve, placed, Int.ofNat_eq_natCast, Int.toNat_natCast]
    simp_all
  truncates contents file size length old sized stored _ := by
    simp only [Contents.serve, sized, Int.ofNat_eq_natCast, Int.toNat_natCast]
    simp_all
  copies contents dst src dstOff srcOff n target source count old data starts comes counts
      stored found _ _ := by
    simp only [Contents.serve, starts, comes, counts, Int.ofNat_eq_natCast, Int.toNat_natCast]
    simp_all

-----------------------------------------------------------------------------------------
-- One file in memory
-----------------------------------------------------------------------------------------

/-- A driver that opens `/a` for writing in place, and nothing else. -/
def opening : (call : DriverCall) → call.Answer
  | .openFile path =>
      if path = [0x2f, 0x61] then .ok (some { id := 0, isWritable := true }) else .ok none
  | call => call.success

def openingStore : OpenStore Contents :=
  memoryStore opening (fun _ => [0x2f, 0x61]) (by
    intro path file opened
    simp only [opening] at opened
    split at opened
    · exact Eq.symm ‹_›
    · cases opened)

def writeTo (offset : UInt64) (data : Bytes) : WriteRequest :=
  { id := 2, handle := zeroToken, offset, data }

/-- Handles on `/a`, for writing by path or in place. -/
def handleOn (writable : Option File) : Handles :=
  AList.insert zeroToken { path := [0x2f, 0x61], write := true, file := writable, writable } ∅

/-- `/a` is a file with this content. -/
def holding (content : Bytes) : Contents :=
  fun path => if path = [0x2f, 0x61] then some content else none

end SftpServer.Sftp
