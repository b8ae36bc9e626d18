import Mathlib.Data.List.AList
import SftpServer.Sftp.Driver
import SftpServer.Wire.Packet

/-! The server's configuration with its limits (`server.go`, `limits.go`), and a session's
handle table (`handle.go`). The table is keyed by the token, so an unknown token is a miss.
-/

namespace SftpServer.Sftp

open SftpServer.Foundations
open SftpServer.Wire

/-- A server: which optional capabilities its driver has, and how it was configured.
`maxPacket` is Go's `int`.
-/
structure Server where
  opener : Bool
  symlinker : Bool
  truncater : Bool
  metadataSetter : Bool
  ro : Bool
  maxPacket : Int64 := 0
  start : UInt32 := 0
  deriving DecidableEq, Repr

def maxReadLength : Nat := 261120

def maxOpenHandles : Nat := 1024

/-- What a WRITE carries besides its data. -/
def writeOverhead : Nat := 4 + 1 + 4 + (4 + 2 * handleBytes) + 8 + 4

namespace Server

def packetLimit (srv : Server) : Nat :=
  if srv.maxPacket ≤ 0 then Wire.maxPacket else srv.maxPacket.toInt.toNat

def readLength (srv : Server) : Nat := min maxReadLength srv.packetLimit

/-- A limit below the overhead makes the difference negative in Go and zero here; either
way one byte is announced.
-/
def writeLength (srv : Server) : Nat :=
  max (min maxReadLength (srv.packetLimit - writeOverhead)) 1

end Server

/-- `errTooManyHandles`. -/
def errTooManyHandles : Bytes := text "too many open handles"

/-- What one handle refers to: a directory listing and the position in it, or a file with
the driver's random access to it. `writable` is `file` again when it can write.
-/
structure OpenFile where
  path : Bytes
  dir : Bool := false
  entries : List DirEntry := []
  pos : Nat := 0
  file : Option File := none
  writable : Option File := none
  write : Bool := false
  deriving DecidableEq, Repr

/-- A session's handle table: tokens are distinct by construction. -/
abbrev Handles := AList fun _ : Bytes => OpenFile

def hexDigit (n : UInt8) : UInt8 := if n < 10 then 0x30 + n else 0x57 + n

/-- `hex.EncodeToString`. -/
def hexEncode (bytes : Bytes) : Bytes :=
  bytes.flatMap fun b : UInt8 => [hexDigit (b >>> 4), hexDigit (b &&& 0x0f)]

theorem length_hexEncode (bytes : Bytes) : (hexEncode bytes).length = 2 * bytes.length := by
  simp [hexEncode, List.length_flatMap, Nat.mul_comm]

namespace Handles

def full (t : Handles) : Bool := decide (maxOpenHandles ≤ t.entries.length)

def get (t : Handles) (tok : Bytes) : Option OpenFile := t.lookup tok

/-- Store `h` under a fresh random token; a failed random source stores nothing. -/
def add (t : Handles) (h : OpenFile) : Prog (Except DriverError (Bytes × Handles)) := do
  match ← randRead with
  | .error err => pure (.error err)
  | .ok b =>
      let tok := hexEncode b.toList
      pure (.ok (tok, AList.insert tok h t))

/-- Drop a token and return what it named. -/
def remove (t : Handles) (tok : Bytes) : Option (OpenFile × Handles) :=
  match t.lookup tok with
  | none => none
  | some h => some (h, t.erase tok)

/-- Everything the table refers to, in the order it is kept. -/
def openFiles (t : Handles) : List OpenFile := t.entries.map fun entry => entry.2

end Handles

/-- Close the driver's file of a handle, if it has one. -/
def OpenFile.closeFile (h : OpenFile) : Prog (Option DriverError) :=
  match h.file with
  | some file => file.close
  | none => pure none

/-- Sync the driver's file of a handle opened for writing in place. -/
def OpenFile.syncFile (h : OpenFile) : Prog (Option DriverError) :=
  match h.writable with
  | some writable => writable.sync
  | none => pure none

/-- Release every handle still open, in the order given, and return the first error. Go
ranges over the map in an order of its own; no lock is held.
-/
def closeAll : List OpenFile → Prog (Option DriverError)
  | [] => pure none
  | h :: rest => do
      let err ← h.closeFile
      let later ← closeAll rest
      return err <|> later

end SftpServer.Sftp
