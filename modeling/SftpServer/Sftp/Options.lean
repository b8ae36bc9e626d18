import SftpServer.Sftp.Handles

/-! How a server is configured (`server.go`): `New` and its options, and the bounds that a
session and all sessions together are given.
-/

namespace SftpServer.Sftp

open SftpServer.Foundations

/-- What a driver can do beside `Filesystem`. -/
structure Capabilities where
  opener : Bool
  symlinker : Bool
  truncater : Bool
  metadataSetter : Bool

/-- The fields of `sftp.Server` that the options set. `int` and `time.Duration` have 64 bits. -/
structure Export where
  server : Server
  maxInFlight : Int64 := 0
  maxTotal : Int64 := 0
  packetWait : Int64 := 0
  pathConcurrent : Bool := false

def defaultMaxInFlight : Int64 := 64

def maxInFlightLimit : Int64 := 1024

def defaultMaxInFlightTotal : Int64 := 256

/-- Thirty seconds, in nanoseconds. -/
def defaultPacketTimeout : Int64 := 30000000000

/-- An `Option` of `New`. -/
inductive Setting where
  | withMaxInFlight (n : Int64)
  | withMaxInFlightTotal (n : Int64)
  | withPacketTimeout (d : Int64)
  | pathOpsConcurrent
  | readWrite
  | withMaxPacket (n : Int64)
  deriving DecidableEq

def Setting.apply (s : Export) : Setting → Export
  | .withMaxInFlight n =>
      { s with maxInFlight := if n ≤ maxInFlightLimit then n else maxInFlightLimit }
  | .withMaxInFlightTotal n => { s with maxTotal := n }
  | .withPacketTimeout d => { s with packetWait := d }
  | .pathOpsConcurrent => { s with pathConcurrent := true }
  | .readWrite => { s with server := { s.server with ro := false } }
  | .withMaxPacket n => { s with server := { s.server with maxPacket := n } }

/-- `New`, of a driver that may be nil: `none` is `ErrNilFilesystem`. -/
def new (fsys : Option Capabilities) (now : UInt32) (opts : List Setting) : Option Export := do
  let driver ← fsys
  let s : Export :=
    {
      server :=
        {
          opener := driver.opener
          symlinker := driver.symlinker
          truncater := driver.truncater
          metadataSetter := driver.metadataSetter
          ro := true
          start := now
        }
    }
  let s := opts.foldl Setting.apply s
  if s.maxTotal ≤ 0 then return { s with maxTotal := defaultMaxInFlightTotal }
  return s

namespace Export

/-- How many requests a session may have in progress, as `Serve` asks for them. -/
def slots (s : Export) : Nat :=
  (if s.maxInFlight ≤ 0 then defaultMaxInFlight else s.maxInFlight).toInt.toNat

/-- How many requests all sessions may have in progress: what the pool is made with. -/
def tokens (s : Export) : Nat := s.maxTotal.toInt.toNat

/-- How long the rest of a packet may take; there is no limit if it is zero. -/
def packetTimeout (s : Export) : Int64 :=
  if s.packetWait = 0 then defaultPacketTimeout
  else if s.packetWait < 0 then 0
  else s.packetWait

/-- Whether `armPacketTimer` sets a timer. -/
def timed (s : Export) : Bool := 0 < s.packetTimeout

end Export

-----------------------------------------------------------------------------------------
-- What the options come to
-----------------------------------------------------------------------------------------

/-- What each option keeps holds after all of them, by induction on them. -/
theorem foldl_apply {P : Export → Prop} (keeps : ∀ s opt, P s → P (Setting.apply s opt))
    (opts : List Setting) {s : Export} (holds : P s)
    : P (opts.foldl Setting.apply s) := by
  induction opts generalizing s with
  | nil => exact holds
  | cons opt opts ih => exact ih (keeps s opt holds)

theorem ro_foldl_apply (opts : List Setting) (s : Export)
    : (opts.foldl Setting.apply s).server.ro = (s.server.ro && !opts.contains .readWrite) := by
  induction opts generalizing s with
  | nil => simp
  | cons opt opts ih =>
      rw [List.foldl_cons, ih]
      cases opt <;> simp [Setting.apply]

/-- What `New` has settled. -/
structure Export.Settled (s : Export) (opts : List Setting) : Prop where
  ro : s.server.ro = true ↔ .readWrite ∉ opts
  slots : 1 ≤ s.slots ∧ s.slots ≤ 1024
  tokens : 1 ≤ s.tokens

theorem maxInFlight_apply (s : Export) (opt : Setting)
    (within : s.maxInFlight ≤ maxInFlightLimit)
    : (Setting.apply s opt).maxInFlight ≤ maxInFlightLimit := by
  cases opt with
  | withMaxInFlight n =>
      simp only [Setting.apply]
      split
      · assumption
      · exact Int64.le_refl _
  | _ => exact within

theorem toNat_pos {n : Int64} (positive : ¬ n ≤ 0) : 1 ≤ n.toInt.toNat := by
  rw [Int64.le_iff_toInt_le, Int64.toInt_zero] at positive
  omega

theorem new_settled {fsys : Option Capabilities} {now : UInt32} {opts : List Setting}
    {s : Export} (made : new fsys now opts = some s)
    : s.Settled opts := by
  obtain ⟨driver, _, made⟩ := Option.bind_eq_some_iff.mp made
  simp only at made
  generalize fresh : (⟨⟨driver.opener, driver.symlinker, driver.truncater, driver.metadataSetter,
    true, 0, now⟩, 0, 0, 0, false⟩ : Export) = begun at made
  have ro : (opts.foldl Setting.apply begun).server.ro = true ↔ .readWrite ∉ opts := by
    rw [ro_foldl_apply, ← fresh]
    simp
  have within : (opts.foldl Setting.apply begun).maxInFlight ≤ maxInFlightLimit :=
    foldl_apply maxInFlight_apply opts (by subst fresh; exact (by decide : (0 : Int64) ≤ 1024))
  generalize opts.foldl Setting.apply begun = folded at made ro within
  have slots : 1 ≤ folded.slots ∧ folded.slots ≤ 1024 := by
    unfold Export.slots
    split
    · decide
    · rename_i positive
      rw [Int64.le_iff_toInt_le] at within
      have limit : maxInFlightLimit.toInt = 1024 := by decide
      exact ⟨toNat_pos positive, by omega⟩
  split at made
  · cases made
    exact ⟨ro, slots, (by decide : 1 ≤ defaultMaxInFlightTotal.toInt.toNat)⟩
  · rename_i positive
    cases made
    exact ⟨ro, slots, toNat_pos positive⟩

end SftpServer.Sftp
