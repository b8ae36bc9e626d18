import SftpServer.Wire.Codec

/-! The messages of SFTP version 3 (`wire/const.go`, `wire/attrs.go`, `wire/messages.go`):
each type with its encoder and the decoder that reads it back.
-/

namespace SftpServer.Wire

open SftpServer.Foundations

/-- The protocol version spoken, `wire.Version`. -/
def version : UInt32 := 3

def fxpInit : UInt8 := 1
def fxpVersion : UInt8 := 2
def fxpOpen : UInt8 := 3
def fxpClose : UInt8 := 4
def fxpRead : UInt8 := 5
def fxpWrite : UInt8 := 6
def fxpLstat : UInt8 := 7
def fxpFstat : UInt8 := 8
def fxpSetstat : UInt8 := 9
def fxpFsetstat : UInt8 := 10
def fxpOpendir : UInt8 := 11
def fxpReaddir : UInt8 := 12
def fxpRemove : UInt8 := 13
def fxpMkdir : UInt8 := 14
def fxpRmdir : UInt8 := 15
def fxpRealpath : UInt8 := 16
def fxpStat : UInt8 := 17
def fxpRename : UInt8 := 18
def fxpReadlink : UInt8 := 19
def fxpSymlink : UInt8 := 20
def fxpStatus : UInt8 := 101
def fxpHandle : UInt8 := 102
def fxpData : UInt8 := 103
def fxpName : UInt8 := 104
def fxpAttrs : UInt8 := 105
def fxpExtended : UInt8 := 200
def fxpExtendedReply : UInt8 := 201

/-- An `SSH_FX_*` code. Any `uint32` can be decoded as one; the server sends these
seven.
-/
abbrev Status := UInt32

def statusOK : Status := 0
def statusEOF : Status := 1
def statusNoSuchFile : Status := 2
def statusPermissionDenied : Status := 3
def statusFailure : Status := 4
def statusBadMessage : Status := 5
def statusOpUnsupported : Status := 8

def fxfWrite : UInt32 := 0x00000002
def fxfAppend : UInt32 := 0x00000004
def fxfCreat : UInt32 := 0x00000008
def fxfTrunc : UInt32 := 0x00000010
def fxfExcl : UInt32 := 0x00000020

def attrSize : UInt32 := 0x00000001
def attrUIDGID : UInt32 := 0x00000002
def attrPermissions : UInt32 := 0x00000004
def attrACModTime : UInt32 := 0x00000008
def attrExtended : UInt32 := 0x80000000

def modeFmt : UInt32 := 0o170000
def modeFifo : UInt32 := 0o010000
def modeChar : UInt32 := 0o020000
def modeDir : UInt32 := 0o040000
def modeBlock : UInt32 := 0o060000
def modeReg : UInt32 := 0o100000
def modeLink : UInt32 := 0o120000
def modeSock : UInt32 := 0o140000
def modePerm : UInt32 := 0o7777

/-- The most extension pairs a peer may claim. -/
def maxExtendedPairs : Nat := 64

/-- The most entries a NAME reply may claim. -/
def maxNameItems : Nat := 65536

structure ExtendedPair where
  type : Bytes
  data : Bytes
  deriving DecidableEq, Repr

/-- An ATTRS structure: `flags` says which of the other fields carry meaning. -/
structure Attributes where
  flags : UInt32 := 0
  size : UInt64 := 0
  uid : UInt32 := 0
  gid : UInt32 := 0
  permissions : UInt32 := 0
  atime : UInt32 := 0
  mtime : UInt32 := 0
  extended : List ExtendedPair := []
  deriving DecidableEq, Repr

/-- The test `a.Flags & flag != 0`. -/
def Attributes.has (a : Attributes) (flag : UInt32) : Bool := a.flags &&& flag != 0

def ExtendedPair.encode (e : Encoder) (p : ExtendedPair) : Encoder :=
  (e.string p.type).string p.data

def Attributes.encode (a : Attributes) (e : Encoder) : Encoder :=
  -- Bits of `flags` that no field belongs to go out as they are.
  let e := e.uint32 a.flags
  let e := if a.has attrSize then e.uint64 a.size else e
  let e := if a.has attrUIDGID then (e.uint32 a.uid).uint32 a.gid else e
  let e := if a.has attrPermissions then e.uint32 a.permissions else e
  let e := if a.has attrACModTime then (e.uint32 a.atime).uint32 a.mtime else e
  if a.has attrExtended then
    a.extended.foldl ExtendedPair.encode (e.uint32 (UInt32.ofNat a.extended.length))
  else
    e

def decodePair : Decode ExtendedPair := do
  let t ← Decode.string
  let v ← Decode.string
  pure { type := t, data := v }

/-- The loop `for range n` of a counted list. -/
def decodeCounted {α : Type} (item : Decode α) : Nat → Decode (List α)
  | 0 => pure []
  | n + 1 => do
      let first ← item
      let others ← decodeCounted item n
      pure (first :: others)

/-- A field that is on the wire only under its flag, and keeps its zero otherwise. -/
def decodeFlagged {α : Type} (present : Bool) (zero : α) (field : Decode α) : Decode α :=
  if present then field else pure zero

def decodeAttributes : Decode Attributes := do
  let flags ← Decode.uint32
  let a : Attributes := { flags }
  let size ← decodeFlagged (a.has attrSize) 0 Decode.uint64
  let uid ← decodeFlagged (a.has attrUIDGID) 0 Decode.uint32
  let gid ← decodeFlagged (a.has attrUIDGID) 0 Decode.uint32
  let permissions ← decodeFlagged (a.has attrPermissions) 0 Decode.uint32
  let atime ← decodeFlagged (a.has attrACModTime) 0 Decode.uint32
  let mtime ← decodeFlagged (a.has attrACModTime) 0 Decode.uint32
  let extended ← decodeFlagged (a.has attrExtended) [] do
    let n ← Decode.uint32
    if maxExtendedPairs < n.toNat then throw .errLimit
    else decodeCounted decodePair n.toNat
  pure { flags, size, uid, gid, permissions, atime, mtime, extended }

structure InitRequest where
  version : UInt32
  extensions : List ExtendedPair
  deriving DecidableEq, Repr

def InitRequest.encodePayload (m : InitRequest) (e : Encoder) : Encoder :=
  m.extensions.foldl ExtendedPair.encode (e.uint32 m.version)

/-- The pairs of INIT, read until the payload is exhausted; `room` is how many more may
be read before `len(m.Extensions) >= maxExtendedPairs`.
-/
def decodePairs : (room : Nat) → Decode (List ExtendedPair)
  | 0 => do
      let left ← Decode.remaining
      if 0 < left then throw .errLimit else pure []
  | room + 1 => do
      let left ← Decode.remaining
      if 0 < left then do
        let first ← decodePair
        let others ← decodePairs room
        pure (first :: others)
      else pure []

def decodeInit (payload : Bytes) : Except WireError InitRequest :=
  Decode.run payload do
    let version ← Decode.uint32
    let extensions ← decodePairs maxExtendedPairs
    pure { version, extensions }

structure VersionReply where
  version : UInt32
  extensions : List ExtendedPair
  deriving DecidableEq, Repr

def VersionReply.encodePayload (m : VersionReply) (e : Encoder) : Encoder :=
  m.extensions.foldl ExtendedPair.encode (e.uint32 m.version)

def decodeVersion (payload : Bytes) : Except WireError VersionReply := do
  let m ← decodeInit payload
  pure { version := m.version, extensions := m.extensions }

structure PathRequest where
  packetType : UInt8
  id : UInt32
  path : Bytes
  deriving DecidableEq, Repr

def PathRequest.encodePayload (m : PathRequest) (e : Encoder) : Encoder :=
  (e.uint32 m.id).string m.path

def decodePath (typ : UInt8) (payload : Bytes) : Except WireError PathRequest :=
  Decode.run payload do
    let id ← Decode.uint32
    let path ← Decode.string
    Decode.done
    pure { packetType := typ, id, path }

structure HandleRequest where
  packetType : UInt8
  id : UInt32
  handle : Bytes
  deriving DecidableEq, Repr

def HandleRequest.encodePayload (m : HandleRequest) (e : Encoder) : Encoder :=
  (e.uint32 m.id).string m.handle

def decodeHandle (typ : UInt8) (payload : Bytes) : Except WireError HandleRequest :=
  Decode.run payload do
    let id ← Decode.uint32
    let handle ← Decode.string
    Decode.done
    pure { packetType := typ, id, handle }

structure OpenRequest where
  id : UInt32
  path : Bytes
  pflags : UInt32
  attrs : Attributes
  deriving DecidableEq, Repr

def OpenRequest.encodePayload (m : OpenRequest) (e : Encoder) : Encoder :=
  m.attrs.encode (((e.uint32 m.id).string m.path).uint32 m.pflags)

def decodeOpen (payload : Bytes) : Except WireError OpenRequest :=
  Decode.run payload do
    let id ← Decode.uint32
    let path ← Decode.string
    let pflags ← Decode.uint32
    let attrs ← decodeAttributes
    Decode.done
    pure { id, path, pflags, attrs }

structure ReadRequest where
  id : UInt32
  handle : Bytes
  offset : UInt64
  length : UInt32
  deriving DecidableEq, Repr

def ReadRequest.encodePayload (m : ReadRequest) (e : Encoder) : Encoder :=
  (((e.uint32 m.id).string m.handle).uint64 m.offset).uint32 m.length

def decodeRead (payload : Bytes) : Except WireError ReadRequest :=
  Decode.run payload do
    let id ← Decode.uint32
    let handle ← Decode.string
    let offset ← Decode.uint64
    let length ← Decode.uint32
    Decode.done
    pure { id, handle, offset, length }

structure WriteRequest where
  id : UInt32
  handle : Bytes
  offset : UInt64
  data : Bytes
  deriving DecidableEq, Repr

def WriteRequest.encodePayload (m : WriteRequest) (e : Encoder) : Encoder :=
  (((e.uint32 m.id).string m.handle).uint64 m.offset).blob m.data

def decodeWrite (payload : Bytes) : Except WireError WriteRequest :=
  Decode.run payload do
    let id ← Decode.uint32
    let handle ← Decode.string
    let offset ← Decode.uint64
    let data ← Decode.blob
    Decode.done
    pure { id, handle, offset, data }

structure SetstatRequest where
  packetType : UInt8
  id : UInt32
  path : Bytes
  attrs : Attributes
  deriving DecidableEq, Repr

def SetstatRequest.encodePayload (m : SetstatRequest) (e : Encoder) : Encoder :=
  m.attrs.encode ((e.uint32 m.id).string m.path)

def decodeSetstat (typ : UInt8) (payload : Bytes) : Except WireError SetstatRequest :=
  Decode.run payload do
    let id ← Decode.uint32
    let path ← Decode.string
    let attrs ← decodeAttributes
    Decode.done
    pure { packetType := typ, id, path, attrs }

structure FsetstatRequest where
  id : UInt32
  handle : Bytes
  attrs : Attributes
  deriving DecidableEq, Repr

def FsetstatRequest.encodePayload (m : FsetstatRequest) (e : Encoder) : Encoder :=
  m.attrs.encode ((e.uint32 m.id).string m.handle)

def decodeFsetstat (payload : Bytes) : Except WireError FsetstatRequest :=
  Decode.run payload do
    let id ← Decode.uint32
    let handle ← Decode.string
    let attrs ← decodeAttributes
    Decode.done
    pure { id, handle, attrs }

structure RenameRequest where
  id : UInt32
  oldPath : Bytes
  newPath : Bytes
  deriving DecidableEq, Repr

def RenameRequest.encodePayload (m : RenameRequest) (e : Encoder) : Encoder :=
  ((e.uint32 m.id).string m.oldPath).string m.newPath

def decodeRename (payload : Bytes) : Except WireError RenameRequest :=
  Decode.run payload do
    let id ← Decode.uint32
    let oldPath ← Decode.string
    let newPath ← Decode.string
    Decode.done
    pure { id, oldPath, newPath }

/-- Target then link on the wire, as every deployed client sends it. -/
structure SymlinkRequest where
  id : UInt32
  targetPath : Bytes
  linkPath : Bytes
  deriving DecidableEq, Repr

def SymlinkRequest.encodePayload (m : SymlinkRequest) (e : Encoder) : Encoder :=
  ((e.uint32 m.id).string m.targetPath).string m.linkPath

def decodeSymlink (payload : Bytes) : Except WireError SymlinkRequest :=
  Decode.run payload do
    let id ← Decode.uint32
    let targetPath ← Decode.string
    let linkPath ← Decode.string
    Decode.done
    pure { id, targetPath, linkPath }

structure ExtendedRequest where
  id : UInt32
  name : Bytes
  data : Bytes
  deriving DecidableEq, Repr

def ExtendedRequest.encodePayload (m : ExtendedRequest) (e : Encoder) : Encoder :=
  ((e.uint32 m.id).string m.name).raw m.data

def decodeExtended (payload : Bytes) : Except WireError ExtendedRequest :=
  Decode.run payload do
    let id ← Decode.uint32
    let name ← Decode.string
    -- No `End` here: what follows the name belongs to the extension.
    let data ← Decode.tail
    pure { id, name, data }

structure StatusReply where
  id : UInt32
  code : Status
  message : Bytes
  lang : Bytes
  deriving DecidableEq, Repr

def StatusReply.encodePayload (m : StatusReply) (e : Encoder) : Encoder :=
  (((e.uint32 m.id).uint32 m.code).string m.message).string m.lang

/-- A payload that ends after the code, or after the message, is accepted. -/
def decodeStatus (payload : Bytes) : Except WireError StatusReply :=
  Decode.run payload do
    let id ← Decode.uint32
    let code ← Decode.uint32
    let left ← Decode.remaining
    if left = 0 then
      pure { id, code, message := [], lang := [] }
    else do
      let message ← Decode.string
      let left ← Decode.remaining
      if left = 0 then
        pure { id, code, message, lang := [] }
      else do
        let lang ← Decode.string
        Decode.done
        pure { id, code, message, lang }

structure HandleReply where
  id : UInt32
  handle : Bytes
  deriving DecidableEq, Repr

def HandleReply.encodePayload (m : HandleReply) (e : Encoder) : Encoder :=
  (e.uint32 m.id).string m.handle

def decodeHandleReply (payload : Bytes) : Except WireError HandleReply :=
  Decode.run payload do
    let id ← Decode.uint32
    let handle ← Decode.string
    Decode.done
    pure { id, handle }

structure DataReply where
  id : UInt32
  data : Bytes
  deriving DecidableEq, Repr

def DataReply.encodePayload (m : DataReply) (e : Encoder) : Encoder :=
  (e.uint32 m.id).blob m.data

def decodeData (payload : Bytes) : Except WireError DataReply :=
  Decode.run payload do
    let id ← Decode.uint32
    let data ← Decode.blob
    Decode.done
    pure { id, data }

structure NameItem where
  filename : Bytes
  longname : Bytes
  attrs : Attributes := {}
  deriving DecidableEq, Repr

def NameItem.encode (e : Encoder) (it : NameItem) : Encoder :=
  it.attrs.encode ((e.string it.filename).string it.longname)

def decodeItem : Decode NameItem := do
  let filename ← Decode.string
  let longname ← Decode.string
  let attrs ← decodeAttributes
  pure { filename, longname, attrs }

structure NameReply where
  id : UInt32
  items : List NameItem
  deriving DecidableEq, Repr

def NameReply.encodePayload (m : NameReply) (e : Encoder) : Encoder :=
  m.items.foldl NameItem.encode
    ((e.uint32 m.id).uint32 (UInt32.ofNat m.items.length))

def decodeName (payload : Bytes) : Except WireError NameReply :=
  Decode.run payload do
    let id ← Decode.uint32
    let n ← Decode.uint32
    -- The count is refused before anything is allocated for it.
    if maxNameItems < n.toNat then throw .errLimit
    else do
      let items ← decodeCounted decodeItem n.toNat
      Decode.done
      pure { id, items }

structure AttrsReply where
  id : UInt32
  attrs : Attributes
  deriving DecidableEq, Repr

def AttrsReply.encodePayload (m : AttrsReply) (e : Encoder) : Encoder :=
  m.attrs.encode (e.uint32 m.id)

def decodeAttrs (payload : Bytes) : Except WireError AttrsReply :=
  Decode.run payload do
    let id ← Decode.uint32
    let attrs ← decodeAttributes
    Decode.done
    pure { id, attrs }

structure ExtendedReply where
  id : UInt32
  data : Bytes
  deriving DecidableEq, Repr

def ExtendedReply.encodePayload (m : ExtendedReply) (e : Encoder) : Encoder :=
  (e.uint32 m.id).raw m.data

def decodeExtendedReply (payload : Bytes) : Except WireError ExtendedReply :=
  Decode.run payload do
    let id ← Decode.uint32
    let data ← Decode.tail
    pure { id, data }

/-- Anything that can be sent as an SFTP packet. -/
inductive Message where
  | initRequest (m : InitRequest)
  | versionReply (m : VersionReply)
  | pathRequest (m : PathRequest)
  | handleRequest (m : HandleRequest)
  | openRequest (m : OpenRequest)
  | readRequest (m : ReadRequest)
  | writeRequest (m : WriteRequest)
  | setstatRequest (m : SetstatRequest)
  | fsetstatRequest (m : FsetstatRequest)
  | renameRequest (m : RenameRequest)
  | symlinkRequest (m : SymlinkRequest)
  | extendedRequest (m : ExtendedRequest)
  | statusReply (m : StatusReply)
  | handleReply (m : HandleReply)
  | dataReply (m : DataReply)
  | nameReply (m : NameReply)
  | attrsReply (m : AttrsReply)
  | extendedReply (m : ExtendedReply)
  deriving DecidableEq, Repr

/-- `Message.EncodePayload`. -/
def Message.encodePayload : Message → Encoder → Encoder
  | .initRequest m => m.encodePayload
  | .versionReply m => m.encodePayload
  | .pathRequest m => m.encodePayload
  | .handleRequest m => m.encodePayload
  | .openRequest m => m.encodePayload
  | .readRequest m => m.encodePayload
  | .writeRequest m => m.encodePayload
  | .setstatRequest m => m.encodePayload
  | .fsetstatRequest m => m.encodePayload
  | .renameRequest m => m.encodePayload
  | .symlinkRequest m => m.encodePayload
  | .extendedRequest m => m.encodePayload
  | .statusReply m => m.encodePayload
  | .handleReply m => m.encodePayload
  | .dataReply m => m.encodePayload
  | .nameReply m => m.encodePayload
  | .attrsReply m => m.encodePayload
  | .extendedReply m => m.encodePayload

/-- What a message occupies on the wire after its type byte. -/
def Message.payload (m : Message) : Bytes := (m.encodePayload newEncoder).buf

/-- `Message.Type`: the packet number a message is sent as. -/
def Message.type : Message → UInt8
  | .initRequest _ => fxpInit
  | .versionReply _ => fxpVersion
  | .pathRequest m => m.packetType
  | .handleRequest m => m.packetType
  | .openRequest _ => fxpOpen
  | .readRequest _ => fxpRead
  | .writeRequest _ => fxpWrite
  | .setstatRequest m => m.packetType
  | .fsetstatRequest _ => fxpFsetstat
  | .renameRequest _ => fxpRename
  | .symlinkRequest _ => fxpSymlink
  | .extendedRequest _ => fxpExtended
  | .statusReply _ => fxpStatus
  | .handleReply _ => fxpHandle
  | .dataReply _ => fxpData
  | .nameReply _ => fxpName
  | .attrsReply _ => fxpAttrs
  | .extendedReply _ => fxpExtendedReply

end SftpServer.Wire
