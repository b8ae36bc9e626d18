import SftpServer.Foundations.Interaction
import SftpServer.Wire.Messages

/-! What the server asks of its surroundings: the driver behind
`filesystem.Filesystem`, the filesystem lock and the random source. A driver may answer
anything its result type allows, including `(nil, nil)`.
-/

namespace SftpServer.Sftp

open SftpServer.Foundations
open SftpServer.Wire

/-- A non-nil Go error: the sentinels `errors.Is` finds in it, and its text. -/
structure DriverError where
  isNotExist : Bool := false
  isPermission : Bool := false
  isExist : Bool := false
  isInvalid : Bool := false
  isShrinkUnsupported : Bool := false
  isEOF : Bool := false
  message : Bytes
  deriving DecidableEq, Repr

/-- A codec error matches none of the driver's sentinels. -/
def ofWireError (err : WireError) : DriverError := { message := err.message }

/-- The table of `errors.go`, consulted when no sentinel matches. -/
def substringStatus : List (Bytes × Status) :=
  [
    (text "not found", statusNoSuchFile),
    (text "no such", statusNoSuchFile),
    (text "does not exist", statusNoSuchFile),
    (text "not a directory", statusFailure),
    (text "is a directory", statusFailure),
    (text "not a regular file", statusFailure),
    (text "not a symbolic link", statusFailure),
    (text "not empty", statusFailure),
    (text "read-only", statusPermissionDenied),
    (text "permission", statusPermissionDenied),
    (text "already exists", statusFailure),
    (text "no space", statusFailure),
    (text "not supported", statusOpUnsupported),
    (text "unsupported", statusOpUnsupported)
  ]

/-- `strings.ToLower`, as far as a search for ASCII text can tell. The dotted capital I and
the Kelvin sign are the two runes beyond ASCII with an ASCII lower case; a lead byte is
never part of another rune, so they are recognised wherever their bytes stand.
-/
def toLower : Bytes → Bytes
  | [] => []
  | 0xC4 :: 0xB0 :: rest => 0x69 :: toLower rest
  | 0xE2 :: 0x84 :: 0xAA :: rest => 0x6B :: toLower rest
  | b :: rest => (if 0x41 ≤ b ∧ b ≤ 0x5A then b + 0x20 else b) :: toLower rest

/-- `strings.Contains`. -/
def containsText (s fragment : Bytes) : Bool := s.tails.any fragment.isPrefixOf

/-- The status a driver error is reported as; a nil error is OK. -/
def statusFor (err : Option DriverError) (fallback : Status) : Status :=
  match err with
  | none => statusOK
  | some err =>
      if err.isNotExist then statusNoSuchFile
      else if err.isPermission then statusPermissionDenied
      else if err.isExist || err.isInvalid then statusFailure
      else if err.isShrinkUnsupported then statusOpUnsupported
      else
        match substringStatus.find? (fun m => containsText (toLower err.message) m.1) with
        | some m => m.2
        | none => fallback

/-- The text of an error for a status message, cut at 512 bytes. -/
def errText (err : Option DriverError) : Bytes :=
  match err with
  | none => []
  | some err =>
      if 512 < err.message.length then err.message.take 512 ++ text "…" else err.message

/-- A `filesystem.Stat`; `mode` is already `uint32(st.Mode())`, and `modTime` is there when
the value implements `TimeStat`.
-/
structure Stat where
  mode : UInt32
  size : UInt64
  modTime : Option Int64 := none
  deriving DecidableEq, Repr

structure DirEntry where
  name : Bytes
  deriving DecidableEq, Repr

/-- A non-nil `filesystem.File`: its identity, and whether it is a `WritableFile` too. -/
structure File where
  id : Nat
  isWritable : Bool
  deriving DecidableEq, Repr

/-- A call on the driver, with its arguments. `copyRange` is `hostcopy.Range`, which reads
the source file and writes the destination.
-/
inductive DriverCall where
  | stat (path : Bytes)
  | readFile (path : Bytes)
  | writeFile (path data : Bytes) (perm : UInt32)
  | listDir (path : Bytes)
  | readLink (path : Bytes)
  | mkDir (path : Bytes) (perm : UInt32)
  | deleteFile (path : Bytes)
  | deleteDir (path : Bytes)
  | rename (oldPath newPath : Bytes)
  | symlink (target linkPath : Bytes)
  | truncate (path : Bytes) (size : Int64)
  | chmod (path : Bytes) (perm : UInt32)
  | chown (path : Bytes) (uid gid : UInt32)
  | chtimes (path : Bytes) (atime mtime : Int64)
  | openFile (path : Bytes)
  | fileReadAt (file : File) (length : Nat) (off : Int64)
  | fileWriteAt (file : File) (data : Bytes) (off : Int64)
  | fileSize (file : File)
  | fileTruncate (file : File) (size : Int64)
  | fileSync (file : File)
  | fileClose (file : File)
  | copyRange (dst src : File) (dstOff srcOff n : Int64)
  deriving DecidableEq, Repr

/-- What a call returns. A value that comes with an error is dropped by every caller, so
such a pair is the error; a nil pointer is `none`. `ReadAt` returns the bytes it put in the
buffer and its error side by side.
-/
abbrev DriverCall.Answer : DriverCall → Type
  | .stat _ => Except DriverError (Option Stat)
  | .readFile _ => Except DriverError Bytes
  | .listDir _ => Except DriverError (List DirEntry)
  | .readLink _ => Except DriverError Bytes
  | .openFile _ => Except DriverError (Option File)
  | .fileReadAt _ _ _ => Bytes × Option DriverError
  | .fileSize _ => Int64
  | _ => Option DriverError

/-- The filesystem lock: exclusive, for path calls, and shared for positional I/O. -/
inductive LockOp where
  | lock
  | unlock
  | lockPath
  | unlockPath
  | lockIo
  | unlockIo
  deriving DecidableEq, Repr

/-- The length of the random part of a handle, `handleBytes`. -/
def handleBytes : Nat := 16

inductive Effect where
  | driver (call : DriverCall)
  | lock (op : LockOp)
  | randRead
  deriving DecidableEq, Repr

abbrev Effect.Answer : Effect → Type
  | .driver call => call.Answer
  | .lock _ => Unit
  | .randRead => Except DriverError (Vector UInt8 handleBytes)

/-- The answer of a driver on which every call succeeds and every path is an empty file. -/
def DriverCall.success : (call : DriverCall) → call.Answer
  | .stat _ => .ok (some { mode := modeReg ||| 0o644, size := 0 })
  | .readFile _ | .readLink _ => .ok []
  | .listDir _ => .ok []
  | .openFile _ => .ok (some { id := 0, isWritable := true })
  | .fileReadAt _ _ _ => ([], none)
  | .fileSize _ => (0 : Int64)
  | .writeFile _ _ _ | .mkDir _ _ | .deleteFile _ | .deleteDir _ | .rename _ _
  | .symlink _ _ | .truncate _ _ | .chmod _ _ | .chown _ _ _ | .chtimes _ _ _
  | .fileWriteAt _ _ _ | .fileTruncate _ _ | .fileSync _ | .fileClose _
  | .copyRange _ _ _ _ _ => (none : Option DriverError)

instance : (effect : Effect) → Inhabited effect.Answer
  | .driver call => ⟨call.success⟩
  | .lock _ => ⟨()⟩
  | .randRead => ⟨.ok (Vector.replicate handleBytes 0)⟩

/-- A piece of the server: a program over the effects above. -/
abbrev Prog := Interaction Effect.Answer

/-- One effect and what it was answered. -/
abbrev Event := Exchange Effect.Answer

namespace Fsys

def stat (path : Bytes) : Prog (Except DriverError (Option Stat)) :=
  .ask (.driver (.stat path)) .ret

def readFile (path : Bytes) : Prog (Except DriverError Bytes) :=
  .ask (.driver (.readFile path)) .ret

def writeFile (path data : Bytes) (perm : UInt32) : Prog (Option DriverError) :=
  .ask (.driver (.writeFile path data perm)) .ret

def listDir (path : Bytes) : Prog (Except DriverError (List DirEntry)) :=
  .ask (.driver (.listDir path)) .ret

def readLink (path : Bytes) : Prog (Except DriverError Bytes) :=
  .ask (.driver (.readLink path)) .ret

def mkDir (path : Bytes) (perm : UInt32) : Prog (Option DriverError) :=
  .ask (.driver (.mkDir path perm)) .ret

def deleteFile (path : Bytes) : Prog (Option DriverError) :=
  .ask (.driver (.deleteFile path)) .ret

def deleteDir (path : Bytes) : Prog (Option DriverError) :=
  .ask (.driver (.deleteDir path)) .ret

def rename (oldPath newPath : Bytes) : Prog (Option DriverError) :=
  .ask (.driver (.rename oldPath newPath)) .ret

def symlink (target linkPath : Bytes) : Prog (Option DriverError) :=
  .ask (.driver (.symlink target linkPath)) .ret

def truncate (path : Bytes) (size : Int64) : Prog (Option DriverError) :=
  .ask (.driver (.truncate path size)) .ret

def chmod (path : Bytes) (perm : UInt32) : Prog (Option DriverError) :=
  .ask (.driver (.chmod path perm)) .ret

def chown (path : Bytes) (uid gid : UInt32) : Prog (Option DriverError) :=
  .ask (.driver (.chown path uid gid)) .ret

def chtimes (path : Bytes) (atime mtime : Int64) : Prog (Option DriverError) :=
  .ask (.driver (.chtimes path atime mtime)) .ret

def openFile (path : Bytes) : Prog (Except DriverError (Option File)) :=
  .ask (.driver (.openFile path)) .ret

end Fsys

namespace File

def readAt (file : File) (length : Nat) (off : Int64) : Prog (Bytes × Option DriverError) :=
  .ask (.driver (.fileReadAt file length off)) .ret

def writeAt (file : File) (data : Bytes) (off : Int64) : Prog (Option DriverError) :=
  .ask (.driver (.fileWriteAt file data off)) .ret

def size (file : File) : Prog Int64 := .ask (.driver (.fileSize file)) .ret

def truncate (file : File) (size : Int64) : Prog (Option DriverError) :=
  .ask (.driver (.fileTruncate file size)) .ret

def sync (file : File) : Prog (Option DriverError) := .ask (.driver (.fileSync file)) .ret

def close (file : File) : Prog (Option DriverError) := .ask (.driver (.fileClose file)) .ret

end File

/-- `hostcopy.Range`. -/
def hostcopyRange (dst src : File) (dstOff srcOff n : Int64) : Prog (Option DriverError) :=
  .ask (.driver (.copyRange dst src dstOff srcOff n)) .ret

def randRead : Prog (Except DriverError (Vector UInt8 handleBytes)) := .ask .randRead .ret

/-- Hold the lock around `body`, as `lock` with a deferred `unlock` does. -/
def withLock {α : Type} (acquire release : LockOp) (body : Prog α) : Prog α :=
  .ask (.lock acquire) fun _ => do
    let result ← body
    .ask (.lock release) fun _ => .ret result

def locked {α : Type} : Prog α → Prog α := withLock .lock .unlock

def rlocked {α : Type} : Prog α → Prog α := withLock .lockPath .unlockPath

def lockedIo {α : Type} : Prog α → Prog α := withLock .lockIo .unlockIo

/-- What a failed call can be reported as: one of four codes, or the fallback. -/
theorem statusFor_some_ne (err : DriverError) {code fallback : Status}
    (unlisted : code ∉ [statusNoSuchFile, statusPermissionDenied, statusFailure,
      statusOpUnsupported])
    (other : fallback ≠ code)
    : statusFor (some err) fallback ≠ code := by
  have apart := unlisted
  simp only [List.mem_cons, List.not_mem_nil, or_false, not_or] at apart
  obtain ⟨missing, denied, failed, unsupported⟩ := apart
  simp only [statusFor]
  split
  · exact Ne.symm missing
  split
  · exact Ne.symm denied
  split
  · exact Ne.symm failed
  split
  · exact Ne.symm unsupported
  -- The sentinels are through: what is left is a row of the table or the fallback.
  split
  · rename_i row found
    have table : ∀ row ∈ substringStatus, row.2 ∈ [statusNoSuchFile, statusPermissionDenied,
        statusFailure, statusOpUnsupported] := by
      decide
    intro same
    exact unlisted (same ▸ table row (List.mem_of_find?_eq_some found))
  · exact other

/-- A failed call is never reported as OK. -/
theorem statusFor_some_ne_ok (err : DriverError) {fallback : Status}
    (honest : fallback ≠ statusOK)
    : statusFor (some err) fallback ≠ statusOK :=
  statusFor_some_ne err (by decide) honest

end SftpServer.Sftp
