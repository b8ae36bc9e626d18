import SftpServer.Sftp.Listings
import SftpServer.Sftp.Paths

/-! The request handlers that run alone (`ops.go`, `copydata.go`). A handler returns its
reply; one that touches the handle table also returns the table it leaves.
-/

namespace SftpServer.Sftp

open SftpServer.Foundations
open SftpServer.Wire

def errReadOnly : Bytes := text "export is read-only"

/-- The largest `int64`, as a wire integer. -/
def maxInt64 : UInt64 := 0x7fffffffffffffff

def status (id : UInt32) (code : Status) (msg : Bytes) : Message :=
  .statusReply { id, code, message := msg, lang := [] }

/-- `status(id, statusFor(err, fallback), errText(err))`. -/
def statusErr (id : UInt32) (err : Option DriverError) (fallback : Status) : Message :=
  status id (statusFor err fallback) (errText err)

/-- A client path as a cleaned path inside the export, or the reply that refuses it. -/
def resolve (id : UInt32) (p : Bytes) : Except Message Bytes :=
  match clean p with
  | none => .error (status id statusFailure (text "invalid path"))
  | some c => .ok c

theorem clean_of_resolve {id : UInt32} {p path : Bytes} (resolved : resolve id p = .ok path)
    : clean p = some path := by
  simp only [resolve] at resolved
  split at resolved
  · cases resolved
  · rename_i cleaned
    rw [cleaned, Except.ok.inj resolved]

theorem refusal_of_resolve {id : UInt32} {p : Bytes} {bad : Message}
    (refused : resolve id p = .error bad)
    : bad = status id statusFailure (text "invalid path") := by
  simp only [resolve] at refused
  split at refused
  · exact (Except.error.inj refused).symm
  · cases refused

/-- STAT and LSTAT are answered alike: the driver has one `Stat`. -/
def opStat (srv : Server) (m : PathRequest) : Prog Message :=
  match resolve m.id m.path with
  | .error bad => pure bad
  | .ok path => rlocked do
      match ← Fsys.stat path with
      | .error err => return statusErr m.id err statusNoSuchFile
      | .ok none => return status m.id statusFailure (text "driver returned no stat")
      | .ok (some st) =>
          return .attrsReply { id := m.id, attrs := srv.attrsFromStat st }

def opFstat (srv : Server) (t : Handles) (m : HandleRequest) : Prog Message :=
  match t.get m.handle with
  | none => pure (status m.id statusFailure (text "unknown handle"))
  | some h => opStat srv { packetType := 0, id := m.id, path := h.path }

/-- The size of a SETSTAT, if it is announced: a truncate is refused, never ignored. -/
def setSize (srv : Server) (id : UInt32) (path : Bytes) (a : Attributes)
    : Prog (Option Message) := do
  if !a.has attrSize then
    return none
  if !srv.truncater then
    return some (status id statusOpUnsupported (text "driver cannot truncate"))
  if maxInt64 < a.size then
    return some (status id statusFailure (text "size beyond what a file can hold"))
  if let some err ← Fsys.truncate path a.size.toInt64 then
    return some (statusErr id err statusFailure)
  return none

/-- Another attribute of a SETSTAT, if it is announced. -/
def setAttribute (id : UInt32) (announced : Bool) (call : Prog (Option DriverError))
    : Prog (Option Message) := do
  if !announced then
    return none
  if let some err ← call then
    return some (statusErr id err statusFailure)
  return none

/-- The rest of a SETSTAT: nothing is refused here for want of a capability. -/
def setMetadata (srv : Server) (id : UInt32) (path : Bytes) (a : Attributes)
    : Prog Message := do
  if !srv.metadataSetter then
    return status id statusOK []
  if let some refusal ← setAttribute id (a.has attrPermissions)
      (Fsys.chmod path (a.permissions &&& modePerm)) then
    return refusal
  if let some refusal ← setAttribute id (a.has attrUIDGID)
      (Fsys.chown path a.uid a.gid) then
    return refusal
  if let some refusal ← setAttribute id (a.has attrACModTime)
      (Fsys.chtimes path (unixTime a.atime) (unixTime a.mtime)) then
    return refusal
  return status id statusOK []

/-- SETSTAT and FSETSTAT: what the driver cannot set is ignored, except the size. -/
def opSetstat (srv : Server) (id : UInt32) (path : Bytes) (a : Attributes)
    : Prog Message := do
  if srv.ro then
    return status id statusPermissionDenied errReadOnly
  locked do
    if let some refusal ← setSize srv id path a then
      return refusal
    setMetadata srv id path a

/-- OPENDIR takes the listing once; READDIR pages through it. -/
def opOpendir (t : Handles) (m : PathRequest) : Prog (Message × Handles) :=
  match resolve m.id m.path with
  | .error bad => pure (bad, t)
  | .ok path => do
      if t.full then
        return (status m.id statusFailure errTooManyHandles, t)
      rlocked do
        match ← Fsys.stat path with
        | .error err => return (statusErr m.id err statusNoSuchFile, t)
        | .ok none =>
            return (status m.id statusFailure (text "driver returned no stat"), t)
        | .ok (some st) =>
            if st.mode &&& modeFmt ≠ modeDir then
              return (status m.id statusFailure (text "not a directory"), t)
            match ← Fsys.listDir path with
            | .error err => return (statusErr m.id err statusFailure, t)
            | .ok entries =>
                match ← t.add { path, dir := true, entries } with
                | .error err => return (status m.id statusFailure (errText err), t)
                | .ok (tok, later) =>
                    return (.handleReply { id := m.id, handle := tok }, later)

/-- How many entries one READDIR reply carries. -/
def readdirBatch : Nat := 64

/-- The NAME item of one entry; an entry that cannot be named or stated has none. -/
def readdirItem (srv : Server) (dir : Bytes) (e : DirEntry) : Prog (Option NameItem) :=
  match join dir e.name with
  | none => pure none
  | some full => do
      match ← Fsys.stat full with
      | .ok (some st) =>
          let a := srv.attrsFromStat st
          return some { filename := e.name, longname := longName e.name a, attrs := a }
      | _ => return none

/-- The items of one batch of a listing, `session.readdirBatch`. -/
def readdirItems (srv : Server) (dir : Bytes) : List DirEntry → Prog (List NameItem)
  | [] => pure []
  | e :: rest => do
      let item ← readdirItem srv dir e
      let items ← readdirItems srv dir rest
      return item.toList ++ items

/-- The loop of READDIR from `pos`: the first batch with a usable entry, and the position
after it. A batch without one is passed over, since an empty NAME would end some clients'
loops early.
-/
def readdirLoop (srv : Server) (dir : Bytes) (entries : List DirEntry) (pos : Nat)
    : Prog (List NameItem × Nat) :=
  if _more : pos < entries.length then do
    let stop := min (pos + readdirBatch) entries.length
    let items ← readdirItems srv dir ((entries.drop pos).take (stop - pos))
    if items.isEmpty then readdirLoop srv dir entries stop else return (items, stop)
  else
    pure ([], pos)
termination_by entries.length - pos
decreasing_by
  simp only [readdirBatch]
  omega

/-- READDIR: the next batch, or EOF when the snapshot is exhausted. -/
def opReaddir (srv : Server) (t : Handles) (m : HandleRequest) : Prog (Message × Handles) :=
  match t.get m.handle with
  | none => pure (status m.id statusFailure (text "unknown handle"), t)
  | some h => do
      if !h.dir then
        return (status m.id statusFailure (text "handle is not a directory"), t)
      rlocked do
        let (items, pos) ← readdirLoop srv h.path h.entries h.pos
        -- The table holds a pointer, so the position moves for every later request.
        let later := AList.insert m.handle { h with pos } t
        if items.isEmpty then
          return (status m.id statusEOF [], later)
        return (.nameReply { id := m.id, items }, later)

/-- REALPATH is `clean` made visible. -/
def opRealpath (m : PathRequest) : Prog Message :=
  match resolve m.id m.path with
  | .error bad => pure bad
  | .ok path =>
      pure (.nameReply { id := m.id, items := [{ filename := path, longname := path }] })

/-- The permission bits a request announces, or `fallback`. -/
def permOr (a : Attributes) (fallback : UInt32) : UInt32 :=
  if a.has attrPermissions then a.permissions &&& modePerm else fallback

/-- The reply of a request that is one driver call: OK, or the status of its error. -/
def statusOf (id : UInt32) (call : Prog (Option DriverError)) (fallback : Status)
    : Prog Message := do
  if let some err ← call then
    return statusErr id err fallback
  return status id statusOK []

def opMkdir (srv : Server) (m : SetstatRequest) : Prog Message := do
  if srv.ro then
    return status m.id statusPermissionDenied errReadOnly
  match resolve m.id m.path with
  | .error bad => return bad
  | .ok path =>
      locked (statusOf m.id (Fsys.mkDir path (permOr m.attrs 0o755)) statusFailure)

/-- REMOVE and RMDIR differ in the driver call they make. -/
def opRemove (srv : Server) (m : PathRequest) : Prog Message := do
  if srv.ro then
    return status m.id statusPermissionDenied errReadOnly
  match resolve m.id m.path with
  | .error bad => return bad
  | .ok path =>
      -- The packet type is the one the session read, not a field of the payload.
      let call := if m.packetType = fxpRmdir then Fsys.deleteDir path else Fsys.deleteFile path
      locked (statusOf m.id call statusNoSuchFile)

def opRename (srv : Server) (m : RenameRequest) : Prog Message := do
  if srv.ro then
    return status m.id statusPermissionDenied errReadOnly
  match resolve m.id m.oldPath with
  | .error bad => return bad
  | .ok oldPath =>
      match resolve m.id m.newPath with
      | .error bad => return bad
      | .ok newPath => locked (statusOf m.id (Fsys.rename oldPath newPath) statusFailure)

/-- READLINK returns the target as the driver stored it. -/
def opReadlink (m : PathRequest) : Prog Message :=
  match resolve m.id m.path with
  | .error bad => pure bad
  | .ok path => rlocked do
      match ← Fsys.readLink path with
      | .error err => return statusErr m.id err statusNoSuchFile
      | .ok target =>
          return .nameReply { id := m.id, items := [{ filename := target, longname := target }] }

/-- SYMLINK cleans the link path only: the target is data. -/
def opSymlink (srv : Server) (m : SymlinkRequest) : Prog Message := do
  if srv.ro then
    return status m.id statusPermissionDenied errReadOnly
  match resolve m.id m.linkPath with
  | .error bad => return bad
  | .ok linkPath =>
      if !srv.symlinker then
        return status m.id statusOpUnsupported (text "driver cannot create symlinks")
      locked (statusOf m.id (Fsys.symlink m.targetPath linkPath) statusFailure)

end SftpServer.Sftp
