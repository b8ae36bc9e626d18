import SftpServer.Sftp.Files
import SftpServer.Wire.Packet

/-! Which handler answers which packet (`session.go`, `concurrent.go`). READ and WRITE are
prepared as jobs, everything else is dispatched alone.
-/

namespace SftpServer.Sftp

open SftpServer.Foundations
open SftpServer.Wire

/-- The id in a payload whose decode failed, 0 if it is too short to hold one. -/
def requestID (payload : Bytes) : UInt32 :=
  if payload.length < 4 then 0 else UInt32.ofNat (BigEndian.decode (payload.take 4))

def badMessage (id : UInt32) (err : WireError) : Message :=
  status id statusBadMessage (errText (ofWireError err))

/-- Answer a decoded request, or refuse one whose payload did not decode. -/
def decoded {α : Type} (t : Handles) (id : UInt32) (request : Except WireError α)
    (op : α → Prog (Message × Handles)) : Prog (Message × Handles) :=
  match request with
  | .error err => pure (badMessage id err, t)
  | .ok m => op m

/-- A handler that leaves the handle table alone. -/
def keeping (t : Handles) (op : Prog Message) : Prog (Message × Handles) := do
  let reply ← op
  return (reply, t)

/-- FSETSTAT: the attributes go to the path the handle was opened under. -/
def opFsetstat (srv : Server) (t : Handles) (m : FsetstatRequest) : Prog Message :=
  match t.get m.handle with
  | none => pure (status m.id statusFailure (text "unknown handle"))
  | some h => opSetstat srv m.id h.path m.attrs

def opExtended (srv : Server) (t : Handles) (m : ExtendedRequest) : Prog Message :=
  if m.name = limitsExtension then pure (limitsReply srv m.id)
  else if m.name = copyDataExtension then copyData srv t m.id m.data
  else
    pure (status m.id statusOpUnsupported (text "unsupported extension: " ++ m.name))

/-- Decode one request and produce its reply. SETSTAT hands its path on as it came. -/
def dispatch (srv : Server) (t : Handles) (typ : UInt8) (payload : Bytes)
    : Prog (Message × Handles) :=
  let id := requestID payload
  if typ = fxpOpen then
    decoded t id (decodeOpen payload) (opOpen srv t)
  else if typ = fxpClose then
    decoded t id (decodeHandle typ payload) (opClose t)
  else if typ = fxpLstat ∨ typ = fxpStat then
    decoded t id (decodePath typ payload) fun m => keeping t (opStat srv m)
  else if typ = fxpFstat then
    decoded t id (decodeHandle typ payload) fun m => keeping t (opFstat srv t m)
  else if typ = fxpSetstat then
    -- Unlike every other path request: no handler below cleans this path.
    decoded t id (decodeSetstat typ payload) fun m =>
      keeping t (opSetstat srv m.id m.path m.attrs)
  else if typ = fxpFsetstat then
    decoded t id (decodeFsetstat payload) fun m => keeping t (opFsetstat srv t m)
  else if typ = fxpOpendir then
    decoded t id (decodePath typ payload) (opOpendir t)
  else if typ = fxpReaddir then
    decoded t id (decodeHandle typ payload) (opReaddir srv t)
  else if typ = fxpRemove ∨ typ = fxpRmdir then
    decoded t id (decodePath typ payload) fun m => keeping t (opRemove srv m)
  else if typ = fxpMkdir then
    decoded t id (decodeSetstat typ payload) fun m => keeping t (opMkdir srv m)
  else if typ = fxpRealpath then
    decoded t id (decodePath typ payload) fun m => keeping t (opRealpath m)
  else if typ = fxpRename then
    decoded t id (decodeRename payload) fun m => keeping t (opRename srv m)
  else if typ = fxpReadlink then
    decoded t id (decodePath typ payload) fun m => keeping t (opReadlink m)
  else if typ = fxpSymlink then
    decoded t id (decodeSymlink payload) fun m => keeping t (opSymlink srv m)
  else if typ = fxpExtended then
    decoded t id (decodeExtended payload) fun m => keeping t (opExtended srv t m)
  else
    pure (status id statusOpUnsupported (text "unsupported request type"), t)

/-- A READ or WRITE as a job, or as the reply to send at once; neither for a request that
is a barrier.
-/
def prepare (srv : Server) (t : Handles) (typ : UInt8) (payload : Bytes)
    : Option Job × Option Message :=
  if typ = fxpRead then
    match decodeRead payload with
    | .error err => (none, some (badMessage (requestID payload) err))
    | .ok m => readJob srv t m
  else if typ = fxpWrite then
    match decodeWrite payload with
    | .error err => (none, some (badMessage (requestID payload) err))
    | .ok m => writeJob srv t m
  else
    (none, none)

theorem prepare_read (srv : Server) (t : Handles) (payload : Bytes)
    : prepare srv t fxpRead payload
      = match decodeRead payload with
        | .error err => (none, some (badMessage (requestID payload) err))
        | .ok m => readJob srv t m :=
  rfl

theorem prepare_write (srv : Server) (t : Handles) (payload : Bytes)
    : prepare srv t fxpWrite payload
      = match decodeWrite payload with
        | .error err => (none, some (badMessage (requestID payload) err))
        | .ok m => writeJob srv t m :=
  rfl

theorem readJob_either (srv : Server) (t : Handles) (m : ReadRequest)
    : (readJob srv t m).1 = none ∨ (readJob srv t m).2 = none := by
  simp only [readJob]
  split
  · exact .inl rfl
  · split_ifs
    · exact .inl rfl
    · exact .inl rfl
    · exact .inr rfl

theorem writeJob_either (srv : Server) (t : Handles) (m : WriteRequest)
    : (writeJob srv t m).1 = none ∨ (writeJob srv t m).2 = none := by
  simp only [writeJob]
  split
  · exact .inl rfl
  · split_ifs
    · exact .inl rfl
    · exact .inl rfl
    · exact .inl rfl
    · exact .inl rfl
    · split
      · exact .inr rfl
      · exact .inr rfl

/-- A request is never both prepared and answered. -/
theorem prepare_either (srv : Server) (t : Handles) (typ : UInt8) (payload : Bytes)
    : (prepare srv t typ payload).1 = none ∨ (prepare srv t typ payload).2 = none := by
  simp only [prepare]
  split_ifs
  · split
    · exact .inl rfl
    · exact readJob_either srv t _
  · split
    · exact .inl rfl
    · exact writeJob_either srv t _
  · exact .inl rfl

/-- One packet of the loop in `session.run`, answered to the end with nothing beside it. -/
def answer (srv : Server) (t : Handles) (typ : UInt8) (payload : Bytes)
    : Prog (Message × Handles) :=
  match prepare srv t typ payload with
  | (some job, _) => keeping t job.run
  | (none, some early) => pure (early, t)
  | (none, none) => dispatch srv t typ payload

/-- A reply, framed in the output buffer of its slot; one that is too large ends the session. -/
def frame (m : Message) (out : Bytes) : Except PacketError Bytes × Bytes := send m out

/-- What a failed negotiation ends a session with. -/
inductive NegotiationError where
  | errNoInit
  | errDecode (err : WireError)
  | errVersion
  deriving DecidableEq, Repr

/-- The first packet: only an INIT of version 3 or later is answered, with version 3. -/
def negotiate (srv : Server) (typ : UInt8) (payload : Bytes)
    : Except NegotiationError VersionReply :=
  if typ ≠ fxpInit then .error .errNoInit
  else
    match decodeInit payload with
    | .error err => .error (.errDecode err)
    | .ok init =>
        if init.version < version then .error .errVersion
        else .ok { version, extensions := srv.extensions }

end SftpServer.Sftp
