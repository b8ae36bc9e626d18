import SftpServer.Sftp.Handles

/-! Attributes of a driver's `Stat`, and the `ls -l` line of a directory entry (`attr.go`).
-/

namespace SftpServer.Sftp

open SftpServer.Foundations
open SftpServer.Wire

/-- The ATTRS a driver's `Stat` is sent as: every field that is set is announced. -/
def Server.attrsFromStat (srv : Server) (st : Stat) : Attributes :=
  -- A mode without a file type is a regular file's.
  let mode := if st.mode &&& modeFmt = 0 then st.mode ||| modeReg else st.mode
  let time := match st.modTime with
    | some seconds => seconds.toUInt64.toUInt32
    | none => srv.start
  {
    flags := attrSize ||| attrUIDGID ||| attrPermissions ||| attrACModTime
    size := st.size
    permissions := if srv.ro then mode &&& ~~~0o222 else mode
    atime := time
    mtime := time
  }

/-- The first character of a mode string. -/
def typeLetter (mode : UInt32) : UInt8 :=
  if mode &&& modeFmt = modeDir then 0x64
  else if mode &&& modeFmt = modeLink then 0x6c
  else if mode &&& modeFmt = modeChar then 0x63
  else if mode &&& modeFmt = modeBlock then 0x62
  else if mode &&& modeFmt = modeFifo then 0x70
  else if mode &&& modeFmt = modeSock then 0x73
  else 0x2d

/-- The closure `setBit` of `modeString`. -/
def setBit (mode : UInt32) (out : Bytes) (pos : Nat) (bit : UInt32) (set unset : UInt8)
    : Bytes :=
  if mode &&& bit = 0 then out
  else if out.getD pos 0 = 0x78 then out.set pos set
  else out.set pos unset

/-- The ten characters of a mode, setuid, setgid and sticky over the execute letters. -/
def modeString (mode : UInt32) : Bytes :=
  let rwx := (text "rwxrwxrwx").zipIdx.map fun (letter, i) =>
    if mode &&& (1 <<< (8 - UInt32.ofNat i)) ≠ 0 then letter else 0x2d
  let out := typeLetter mode :: rwx
  let out := setBit mode out 3 0o4000 0x73 0x53
  let out := setBit mode out 6 0o2000 0x73 0x53
  setBit mode out 9 0o1000 0x74 0x54

/-- `strconv.FormatUint` in base ten. -/
def formatUint (n : Nat) : Bytes := (Nat.toDigits 10 n).map fun c => UInt8.ofNat c.toNat

def monthNames : List Bytes :=
  ["Jan", "Feb", "Mar", "Apr", "May", "Jun", "Jul", "Aug", "Sep", "Oct", "Nov",
    "Dec"].map text

/-- Month, counted from zero, and day of the month of a day since the epoch. Years are
counted from March, so that a leap day is the last of its year.
-/
def civilDay (days : Nat) : Nat × Nat :=
  let dayOfEra := (days + 719468) % 146097
  let yearOfEra :=
    (dayOfEra - dayOfEra / 1460 + dayOfEra / 36524 - dayOfEra / 146096) / 365
  let dayOfYear := dayOfEra - (365 * yearOfEra + yearOfEra / 4 - yearOfEra / 100)
  let month := (5 * dayOfYear + 2) / 153
  ((month + 2) % 12, dayOfYear - (153 * month + 2) / 5 + 1)

/-- Left-pad a number below 100 to two characters. -/
def padTwo (fill : UInt8) (n : Nat) : Bytes :=
  if n < 10 then fill :: formatUint n else formatUint n

/-- `time.Unix(seconds, 0).UTC().Format("Jan _2 15:04")`. -/
def formatTime (seconds : UInt32) : Bytes :=
  let (month, day) := civilDay (seconds.toNat / 86400)
  let minutes := seconds.toNat % 86400 / 60
  monthNames.getD month [] ++ text " " ++ padTwo 0x20 day ++ text " "
    ++ padTwo 0x30 (minutes / 60) ++ text ":" ++ padTwo 0x30 (minutes % 60)

example : formatTime 1700000000 = text "Nov 14 22:13" := by decide

example : formatTime 951782400 = text "Feb 29 00:00" := by decide

/-- The `ls -l` form of one directory entry. -/
def longName (name : Bytes) (a : Attributes) : Bytes :=
  modeString a.permissions ++ text " 1 " ++ formatUint a.uid.toNat ++ text " "
    ++ formatUint a.gid.toNat ++ text " " ++ formatUint a.size.toNat ++ text " "
    ++ formatTime a.mtime ++ text " " ++ name

example :
    longName (text "src") { permissions := 0o040755, size := 4096, mtime := 86400 }
      = text "drwxr-xr-x 1 0 0 4096 Jan  2 00:00 src" := by
  decide

/-- `time.Unix(int64(sec), 0)`, kept as its seconds. -/
def unixTime (sec : UInt32) : Int64 := sec.toUInt64.toInt64

end SftpServer.Sftp
