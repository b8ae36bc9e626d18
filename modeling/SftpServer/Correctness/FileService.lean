import SftpServer.Correctness.CopyData
import SftpServer.Correctness.CriticalSections

/-! What the server is for: a service of files. Of the files it keeps the contents, of a client
the handles it was granted, and which of them are adrift because their file was moved or removed
while it was open. A request touches the files at or below the paths it names and no others, what
is acknowledged was done, and what is read is what is there; by a handle that is adrift nothing
certain is read or written. The server is such a service over every driver whose calls do what
they report and touch only what they name; such a driver may fail whenever it likes.
-/

namespace SftpServer.Sftp

open SftpServer.Foundations
open SftpServer.Wire

-----------------------------------------------------------------------------------------
-- The service
-----------------------------------------------------------------------------------------

/-- What a client was granted with a handle. -/
structure Grant where
  path : Bytes
  dir : Bool
  write : Bool
  deriving DecidableEq, Repr

/-- The handles of a client, by token. -/
abbrev Grants := Bytes → Option Grant

/-- The tokens of a client whose handles are adrift. -/
abbrev Adrift := Bytes → Bool

/-- What a packet asks of the files. A packet that is refused whatever they are, or that only
looks at what is not a file's content, is `other`.
-/
inductive Command where
  | openFile (m : OpenRequest) (path : Bytes)
  | openDir (path : Bytes)
  | close (token : Bytes)
  | read (m : ReadRequest)
  | write (m : WriteRequest)
  | set (id : UInt32) (path : Bytes) (attrs : Attributes)
  | remove (id : UInt32) (path : Bytes)
  /-- Make or remove a directory, or make a link. -/
  | arrange (path : Bytes)
  | rename (id : UInt32) (oldPath newPath : Bytes)
  | copy (id : UInt32) (m : CopyRequest)
  | other

namespace Command

def ofDecoded {α : Type} (request : Except WireError α) (command : α → Command) : Command :=
  match request with
  | .ok m => command m
  | .error _ => .other

def ofPath (p : Bytes) (command : Bytes → Command) : Command :=
  match clean p with
  | some path => command path
  | none => .other

/-- What a packet asks for, of a client with these handles. -/
def ofPacket (grants : Grants) (typ : UInt8) (payload : Bytes) : Command :=
  if typ = fxpRead then ofDecoded (decodeRead payload) .read
  else if typ = fxpWrite then ofDecoded (decodeWrite payload) .write
  else if typ = fxpOpen then
    ofDecoded (decodeOpen payload) fun m => ofPath m.path (.openFile m)
  else if typ = fxpClose then ofDecoded (decodeHandle typ payload) fun m => .close m.handle
  else if typ = fxpSetstat then
    ofDecoded (decodeSetstat typ payload) fun m => .set m.id m.path m.attrs
  else if typ = fxpFsetstat then
    ofDecoded (decodeFsetstat payload) fun m =>
      (grants m.handle).elim .other fun grant => .set m.id grant.path m.attrs
  else if typ = fxpOpendir then
    ofDecoded (decodePath typ payload) fun m => ofPath m.path .openDir
  else if typ = fxpRemove ∨ typ = fxpRmdir then
    ofDecoded (decodePath typ payload) fun m =>
      ofPath m.path (if typ = fxpRmdir then .arrange else .remove m.id)
  else if typ = fxpMkdir then
    ofDecoded (decodeSetstat typ payload) fun m => ofPath m.path .arrange
  else if typ = fxpRename then
    ofDecoded (decodeRename payload) fun m =>
      ofPath m.oldPath fun oldPath => ofPath m.newPath (.rename m.id oldPath)
  else if typ = fxpSymlink then
    ofDecoded (decodeSymlink payload) fun m => ofPath m.linkPath .arrange
  else if typ = fxpExtended then
    ofDecoded (decodeExtended payload) fun m =>
      if m.name = copyDataExtension then ofDecoded (decodeCopyRequest m.data) (.copy m.id)
      else .other
  else .other

/-- The paths at or below which a handle may change files: its own, or all if it is adrift. -/
def reach (grants : Grants) (adrift : Adrift) (token : Bytes) : List Bytes :=
  if adrift token then [[slash]] else (grants token).toList.map Grant.path

/-- The paths at or below which a command may change files. -/
def touches (grants : Grants) (adrift : Adrift) : Command → List Bytes
  | .openFile m path => if wantsWrite m.pflags then [path] else []
  | .write m => reach grants adrift m.handle
  | .set _ path _ | .remove _ path | .arrange path => [path]
  | .rename _ oldPath newPath => [oldPath, newPath]
  | .copy _ m => reach grants adrift m.target
  | .openDir _ | .close _ | .read _ | .other => []

/-- The paths at or below which a command may move or remove files. -/
def moves : Command → List Bytes
  | .remove _ path | .arrange path => [path]
  | .rename _ oldPath newPath => [oldPath, newPath]
  | .openFile _ _ | .openDir _ | .close _ | .read _ | .write _ | .set _ _ _ | .copy _ _
  | .other => []

/-- The handles of any client that are adrift after a command, where open files may follow the
file they were opened on.
-/
def casts (follows : Bool) (grants : Grants) (adrift : Adrift) (command : Command) : Adrift :=
  fun token => adrift token
    || follows && (grants token).any fun grant => command.moves.any (Below · grant.path)

/-- A handle that the client is granted with the reply is not adrift. -/
def anchors (adrift : Adrift) (reply : Message) : Command → Adrift
  | .openFile _ _ | .openDir _ =>
      match reply with
      | .handleReply ⟨_, token⟩ => Function.update adrift token false
      | _ => adrift
  | _ => adrift

/-- The handles of the client after the reply. -/
def granted (grants : Grants) (reply : Message) : Command → Grants
  | .openFile m path =>
      match reply with
      | .handleReply ⟨_, token⟩ =>
          Function.update grants token (some ⟨path, false, wantsWrite m.pflags⟩)
      | _ => grants
  | .openDir path =>
      match reply with
      | .handleReply ⟨_, token⟩ => Function.update grants token (some ⟨path, true, false⟩)
      | _ => grants
  | .close token => Function.update grants token none
  | _ => grants

/-- What an OPEN that was granted has made of the files: TRUNC has emptied the file, EXCL with
CREAT has created it, CREAT alone has created it if it was not found.
-/
def Opened (m : OpenRequest) (path : Bytes) (files later : Contents) : Prop :=
  later = files ∧ m.pflags &&& fxfTrunc = 0
      ∧ (m.pflags &&& fxfCreat = 0 ∨ m.pflags &&& fxfExcl = 0)
    ∨ later = Function.update files path (some [])
      ∧ (m.pflags &&& fxfTrunc ≠ 0 ∨ m.pflags &&& fxfCreat ≠ 0)

/-- What the reply to a command tells of the files before and after it. -/
def Tells (srv : Server) (files : Contents) (grants : Grants) (adrift : Adrift)
    (reply : Message) (later : Contents) : Command → Prop
  | .openFile m path => isHandle reply = true → Opened m path files later
  | .read m =>
      (∀ data, reply = .dataReply { id := m.id, data } → 0 < m.length
        → ∃ grant, grants m.handle = some grant ∧ grant.dir = false
          ∧ ∀ content, adrift m.handle = false → files grant.path = some content
            → content.length < 2 ^ 63
            → data ≠ []
              ∧ data <+: window content m.offset.toNat (min m.length.toNat srv.readLength))
      ∧ (reply = status m.id statusEOF []
        → ∃ grant, grants m.handle = some grant ∧ grant.dir = false
          ∧ ∀ content, adrift m.handle = false → files grant.path = some content
            → content.length < 2 ^ 63
            → content.length ≤ m.offset.toNat)
  | .write m =>
      reply = status m.id statusOK []
      → ∃ grant, grants m.handle = some grant ∧ grant.dir = false ∧ grant.write = true
        ∧ ∀ old, adrift m.handle = false → files grant.path = some old
          -- Whether a WRITE of nothing past the end pads the file is not told.
          → ∃ pads, later = Function.update files grant.path
              (some (writeAt pads 0 old m.offset.toNat m.data))
  | .set id path attrs =>
      reply = status id statusOK []
      → if attrs.has attrSize then
          ∀ old, files path = some old
            → later = Function.update files path (some (resize 0 old attrs.size.toNat))
        else later = files
  | .remove id path => reply = status id statusOK [] → later path = none
  | .rename id oldPath newPath =>
      reply = status id statusOK []
      → later newPath = files oldPath ∧ (oldPath ≠ newPath → later oldPath = none)
  | .copy id m =>
      reply = status id statusOK []
      → ∃ source target, grants m.source = some source ∧ grants m.target = some target
        ∧ target.write = true ∧ source.path ≠ target.path
        ∧ ∀ data old, adrift m.source = false → adrift m.target = false
          → files source.path = some data → files target.path = some old
          → data.length < 2 ^ 63 → old.length < 2 ^ 63
          → m.sourceOff.toNat + m.length.toNat < 2 ^ 63
          → m.targetOff.toNat + copyCount data.length m < 2 ^ 63
          → later = Function.update files target.path
              (some (writeAt true 0 old m.targetOff.toNat (m.range data)))
  | .openDir _ | .close _ | .arrange _ | .other => True

end Command

/-- One request of a client is served. -/
structure Serves (srv : Server) (files : Contents) (grants : Grants) (adrift : Adrift)
    (typ : UInt8) (payload : Bytes) (reply : Message) (later : Contents) (granted : Grants)
    : Prop where
  others : ∀ path,
    (∀ top ∈ (Command.ofPacket grants typ payload).touches grants adrift, ¬Below top path)
    → later path = files path
  readOnly : srv.ro = true → later = files
  granted : granted = (Command.ofPacket grants typ payload).granted grants reply
  tells : (Command.ofPacket grants typ payload).Tells srv files grants adrift reply later

-----------------------------------------------------------------------------------------
-- The drivers
-----------------------------------------------------------------------------------------

/-- A call that changes files at or below these paths only, where an open file may be the one at
a path.
-/
def DriverCall.Confined (isAt : File → Bytes → Prop) (tops : List Bytes) : DriverCall → Prop
  | .writeFile path _ _ | .mkDir path _ | .deleteFile path | .deleteDir path | .symlink _ path
  | .truncate path _ => path ∈ tops
  | .rename oldPath newPath => oldPath ∈ tops ∧ newPath ∈ tops
  | .fileWriteAt file _ _ | .fileTruncate file _ | .copyRange file _ _ _ _ =>
      ∃ top ∈ tops, isAt file top
  | .stat _ | .readFile _ | .listDir _ | .readLink _ | .chmod _ _ | .chown _ _ _
  | .chtimes _ _ _ | .openFile _ | .fileReadAt _ _ _ | .fileSize _ | .fileSync _
  | .fileClose _ => True

/-- A store whose calls do what they report when they succeed and touch what they name, whether
or not they succeed. `ReadAt` may return less than it was asked for, but nothing at the end of
the file only, unless it reports an error. What is read and written by an open file that is not
the one at a path any more is not said.
-/
structure HonestStore (State : Type) extends PlacedStore State where
  keepsOthers : ∀ s call tops path, call.Confined (isAt s) tops → (∀ top ∈ tops, ¬Below top path)
    → contents (serve s call).2 path = contents s path
  readsAt : ∀ s file path n off position data, isAt s file path → off.toInt = Int.ofNat position
    → contents s path = some data
    → (serve s (.fileReadAt file n off)).1.1 <+: window data position n
      ∧ ((serve s (.fileReadAt file n off)).1.1 = []
        → (∀ err ∈ (serve s (.fileReadAt file n off)).1.2, err.isEOF = true)
        → window data position n = [])
  resizes : ∀ s path size length old, size.toInt = Int.ofNat length
    → contents s path = some old
    → (serve s (.truncate path size)).1 = none
    → contents (serve s (.truncate path size)).2
      = Function.update (contents s) path (some (resize 0 old length))
  removes : ∀ s path, (serve s (.deleteFile path)).1 = none
    → contents (serve s (.deleteFile path)).2 path = none
  renames : ∀ s oldPath newPath, (serve s (.rename oldPath newPath)).1 = none
    → contents (serve s (.rename oldPath newPath)).2 newPath = contents s oldPath
      ∧ (oldPath ≠ newPath → contents (serve s (.rename oldPath newPath)).2 oldPath = none)

-----------------------------------------------------------------------------------------
-- Files in memory
-----------------------------------------------------------------------------------------

end SftpServer.Sftp
