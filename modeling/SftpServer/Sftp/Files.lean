import SftpServer.Sftp.Operations

/-! Requests on files (`ops.go`, `copydata.go`): OPEN and CLOSE, which run alone, the jobs
that READ and WRITE are turned into, and the server-side copy.
-/

namespace SftpServer.Sftp

open SftpServer.Foundations
open SftpServer.Wire

/-- Whether an OPEN's pflags ask for any mutation. -/
def wantsWrite (pflags : UInt32) : Bool :=
  pflags &&& (fxfWrite ||| fxfAppend ||| fxfCreat ||| fxfTrunc ||| fxfExcl) != 0

/-- Register a handle; if no token can be drawn, its file is closed again. -/
def registerHandle (t : Handles) (id : UInt32) (h : OpenFile) : Prog (Message × Handles) := do
  match ← t.add h with
  | .error err =>
      -- The error of this `Close` is dropped.
      let _ ← h.closeFile
      return (status id statusFailure (errText err), t)
  | .ok (tok, later) => return (.handleReply { id, handle := tok }, later)

/-- Open the driver's file, if the driver has an `Opener`, and register a handle. A file
that cannot write at an offset is closed again when the handle is to be written through:
it is a snapshot, and would serve stale bytes after the first rewrite.
-/
def finishOpen (srv : Server) (t : Handles) (id : UInt32) (path : Bytes) (write : Bool)
    : Prog (Message × Handles) := do
  if !srv.opener then
    registerHandle t id { path, write }
  else
    match ← Fsys.openFile path with
    | .error err => return (statusErr id err statusFailure, t)
    | .ok none => return (status id statusFailure (text "driver returned no file"), t)
    | .ok (some f) =>
        if !write then
          registerHandle t id { path, write, file := some f }
        else if f.isWritable then
          registerHandle t id { path, write, file := some f, writable := some f }
        else if let some err ← f.close then
          return (statusErr id err statusFailure, t)
        else
          registerHandle t id { path, write }

/-- The switch of OPEN for writing: refused, after a `WriteFile` that creates or truncates,
or at once. `st` is what `Stat` found.
-/
def openForWrite (srv : Server) (t : Handles) (m : OpenRequest) (path : Bytes)
    (st : Option Stat) (statErr : Option DriverError) : Prog (Message × Handles) := do
  if st.isSome ∧ m.pflags &&& fxfExcl ≠ 0 then
    return (status m.id statusFailure (text "file already exists"), t)
  else if st.isNone ∧ m.pflags &&& fxfCreat = 0 then
    return (statusErr m.id statErr statusNoSuchFile, t)
  else if st.isNone ∨ m.pflags &&& fxfTrunc ≠ 0 then
    -- EXCL alone does not come here: without CREAT a missing file is refused above.
    if let some err ← Fsys.writeFile path [] (permOr m.attrs 0o644) then
      return (statusErr m.id err statusFailure, t)
    else
      finishOpen srv t m.id path true
  else
    finishOpen srv t m.id path true

/-- OPEN after `Stat` has answered. Only a `Stat` without an error counts: it exists if it
is not nil, and then it must not be a directory.
-/
def openStated (srv : Server) (t : Handles) (m : OpenRequest) (path : Bytes)
    (st : Option Stat) (statErr : Option DriverError) : Prog (Message × Handles) :=
  if st.any (fun st => st.mode &&& modeFmt == modeDir) then
    pure (status m.id statusFailure (text "is a directory"), t)
  else if wantsWrite m.pflags then
    openForWrite srv t m path st statErr
  else if st.isNone then
    pure (statusErr m.id statErr statusNoSuchFile, t)
  else
    finishOpen srv t m.id path false

def opOpen (srv : Server) (t : Handles) (m : OpenRequest) : Prog (Message × Handles) :=
  match resolve m.id m.path with
  | .error bad => pure (bad, t)
  | .ok path => do
      if wantsWrite m.pflags && srv.ro then
        return (status m.id statusPermissionDenied errReadOnly, t)
      if t.full then
        return (status m.id statusFailure errTooManyHandles, t)
      locked do
        -- A nil `Stat` without an error counts as absent, with no error to report.
        match ← Fsys.stat path with
        | .ok st => openStated srv t m path st none
        | .error err => openStated srv t m path none (some err)

/-- CLOSE syncs a writable file first: it is the last moment at which a driver's buffering
failure can be reported. The file is closed whatever `Sync` said.
-/
def opClose (t : Handles) (m : HandleRequest) : Prog (Message × Handles) :=
  match t.remove m.handle with
  | none => pure (status m.id statusFailure (text "unknown handle"), t)
  | some (h, later) => locked do
      let syncErr ← h.syncFile
      let closeErr ← h.closeFile
      match syncErr <|> closeErr with
      | some err => return (statusErr m.id (some err) statusFailure, later)
      | none => return (status m.id statusOK [], later)

/-- The part of a file a request touches, `inflight.Span`. -/
inductive Span where
  | readRange (key : Bytes) (off : UInt64) (len : Nat)
  | writeRange (key : Bytes) (off : UInt64) (len : Nat)
  | writeAll (key : Bytes)
  deriving DecidableEq, Repr

/-- A request that may run beside others: where it touches, and how to answer it. -/
structure Job where
  span : Span
  run : Prog Message

/-- A READ from an open file: one `ReadAt`, whose bytes are sent even beside an EOF. -/
def readAt (id : UInt32) (f : File) (off : UInt64) (n : Nat) : Prog Message := do
  if maxInt64 < off then
    return status id statusEOF []
  let (got, err) ← f.readAt n off.toInt64
  -- Bytes first: an error beside them is reported by the next READ.
  if 0 < got.length then
    return .dataReply { id, data := got }
  match err with
  | none => return status id statusEOF []
  | some err =>
      if err.isEOF then
        return status id statusEOF []
      return statusErr id err statusFailure

/-- The sum of two `uint64`, saturating: the offset comes off the wire. -/
def satAdd (a b : Nat) : Nat := min (a + b) (2 ^ 64 - 1)

/-- A READ without an open file: the whole file is read and sliced. -/
def readWhole (id : UInt32) (path : Bytes) (off : UInt64) (n : Nat) : Prog Message := do
  match ← Fsys.readFile path with
  | .error err => return statusErr id err statusFailure
  | .ok data =>
      if data.length ≤ off.toNat then
        return status id statusEOF []
      let stop := min (satAdd off.toNat n) data.length
      return .dataReply { id, data := (data.take stop).drop off.toNat }

/-- READ: the reply at once when no driver is needed, otherwise a job. -/
def readJob (srv : Server) (t : Handles) (m : ReadRequest) : Option Job × Option Message :=
  match t.get m.handle with
  | none => (none, some (status m.id statusFailure (text "unknown handle")))
  | some h =>
      if h.dir then
        (none, some (status m.id statusFailure (text "handle is a directory")))
      else if m.length = 0 then
        (none, some (.dataReply { id := m.id, data := [] }))
      else
        let n := min m.length.toNat srv.readLength
        let run := match h.file with
          | some file => lockedIo (readAt m.id file m.offset n)
          | none => rlocked (readWhole m.id h.path m.offset n)
        (some { span := .readRange h.path m.offset n, run }, none)

def maxSpliceGrowth : Nat := 8388608

def maxFileSplice : Nat := 1073741824

/-- The buffer of `writeSplice`: grown with zeros to `stop` if that is past its end, and
the data copied in at `off`.
-/
def spliced (old : Bytes) (off stop : Nat) (data : Bytes) : Bytes :=
  let buf := old ++ List.replicate (stop - old.length) 0
  buf.take off ++ data ++ buf.drop (off + data.length)

/-- A WRITE on a driver without `WritableFile`: read the whole file, splice, write it back.
The end of the write is a `uint64` and may wrap.
-/
def writeSplice (id : UInt32) (path : Bytes) (off : UInt64) (data : Bytes)
    : Prog Message := do
  match ← Fsys.readFile path with
  | .error err => return statusErr id err statusFailure
  | .ok old =>
      let stop := (off.toNat + data.length) % 2 ^ 64
      -- A write inside the file is never too large to rewrite.
      if stop < off.toNat
          ∨ (old.length < stop
            ∧ (maxSpliceGrowth < stop - old.length ∨ maxFileSplice < stop)) then
        return status id statusFailure
          (text "write beyond what rewriting the whole file can hold")
      statusOf id (Fsys.writeFile path (spliced old off.toNat stop data) 0o644)
        statusFailure

/-- WRITE, like `readJob`: a rewrite of the whole file is ordered against everything else
on the path.
-/
def writeJob (srv : Server) (t : Handles) (m : WriteRequest)
    : Option Job × Option Message :=
  match t.get m.handle with
  | none => (none, some (status m.id statusFailure (text "unknown handle")))
  | some h =>
      if h.dir then
        (none, some (status m.id statusFailure (text "handle is a directory")))
      else if srv.ro then
        (none, some (status m.id statusPermissionDenied errReadOnly))
      else if !h.write then
        (none,
          some (status m.id statusPermissionDenied (text "handle not opened for writing")))
      else if maxInt64 < m.offset then
        (none, some (status m.id statusFailure (text "offset beyond what a file can hold")))
      else
        match h.writable with
        | some writable =>
            (some {
              span := .writeRange h.path m.offset m.data.length
              run := lockedIo
                (statusOf m.id (writable.writeAt m.data m.offset.toInt64) statusFailure)
            }, none)
        | none =>
            (some {
              span := .writeAll h.path
              run := locked (writeSplice m.id h.path m.offset m.data)
            }, none)

def limitsExtension : Bytes := text "limits@openssh.com"

def copyDataExtension : Bytes := text "copy-data"

/-- copy-data is offered between files the driver opens, into a writable export. -/
def Server.copiesData (srv : Server) : Bool := srv.opener && !srv.ro

/-- What VERSION advertises. -/
def Server.extensions (srv : Server) : List ExtendedPair :=
  { type := limitsExtension, data := text "1" }
    :: if srv.copiesData then [{ type := copyDataExtension, data := text "1" }] else []

/-- The operands of copy-data. -/
structure CopyRequest where
  source : Bytes
  sourceOff : UInt64
  length : UInt64
  target : Bytes
  targetOff : UInt64
  deriving DecidableEq, Repr

/-- All five fields are read whatever became of the earlier ones, and the first error is
reported; what follows them is not looked at.
-/
def decodeCopyRequest (data : Bytes) : Except WireError CopyRequest :=
  let (source, d) := Decode.string (newDecoder data)
  let (sourceOff, d) := Decode.uint64 d
  let (length, d) := Decode.uint64 d
  let (target, d) := Decode.string d
  let (targetOff, _) := Decode.uint64 d
  do
    pure {
      source := ← source
      sourceOff := ← sourceOff
      length := ← length
      target := ← target
      targetOff := ← targetOff
    }

/-- Give the target its final length first: a driver whose `WriteAt` cannot extend a file
grows it only through `Truncate`.
-/
def growTo (dst : File) (size stop : Int64) : Prog (Option DriverError) :=
  if size < stop then dst.truncate stop else pure none

/-- The copy itself, under the lock. A length of zero, or one past the end of the source,
copies to its end.
-/
def copyLocked (id : UInt32) (src dst : File) (m : CopyRequest) : Prog Message := do
  let size ← src.size
  -- The sums are those of `int64`, and wrap as they do.
  let rest := size - m.sourceOff.toInt64
  let n :=
    if m.length = 0 ∨ size < m.sourceOff.toInt64 + m.length.toInt64 then max rest 0
    else m.length.toInt64
  let stop := m.targetOff.toInt64 + n
  let targetSize ← dst.size
  if let some err ← growTo dst targetSize stop then
    return statusErr id err statusFailure
  statusOf id (hostcopyRange dst src m.targetOff.toInt64 m.sourceOff.toInt64 n) statusFailure

/-- The bound on the offsets and the length of a copy. -/
def maxCopyOffset : UInt64 := 0x4000000000000000

def copyData (srv : Server) (t : Handles) (id : UInt32) (data : Bytes) : Prog Message :=
  match decodeCopyRequest data with
  | .error err => pure (status id statusBadMessage (text "copy-data: " ++ err.message))
  | .ok m => do
      if !srv.copiesData then
        return status id statusOpUnsupported (text "unsupported extension: " ++ copyDataExtension)
      match t.get m.source, t.get m.target with
      | some src, some dst =>
          if src.dir || dst.dir then
            return status id statusFailure (text "handle is a directory")
          if src.path = dst.path then
            return status id statusFailure (text "copy-data within one file")
          if !dst.write then
            return status id statusPermissionDenied
              (text "write-to handle was not opened for writing")
          match src.file, dst.writable with
          | some file, some writable =>
              if maxCopyOffset < m.sourceOff ∨ maxCopyOffset < m.length
                  ∨ maxCopyOffset < m.targetOff then
                return status id statusFailure
                  (text "copy-data: offset or length out of range")
              locked (copyLocked id file writable m)
          | _, _ =>
              return status id statusOpUnsupported
                (text "copy-data needs files the driver opens and writes in place")
      | _, _ => return status id statusFailure (text "unknown handle")

/-- Packet, read and write limits and the handle bound, each a `uint64`. -/
def limitsReply (srv : Server) (id : UInt32) : Message :=
  .extendedReply {
    id
    data := [srv.packetLimit, srv.readLength, srv.writeLength, maxOpenHandles].flatMap
      (BigEndian.encode 8)
  }

end SftpServer.Sftp
