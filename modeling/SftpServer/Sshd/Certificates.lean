import Mathlib.Data.List.AList
import SftpServer.Wire.Codec

/-! What the SSH front-end takes from `golang.org/x/crypto/ssh`: public keys, certificates and
permissions, and the checker of certificates. The library is not part of this repository. Its
functions are a parameter of what calls them, and what a result assumes of them stands among
its hypotheses.
-/

namespace SftpServer.Sshd

open SftpServer.Foundations
open SftpServer.Wire

/-- Options of a certificate or of a login, by name. -/
abbrev Options := AList fun _ : Bytes => Bytes

structure Permissions where
  criticalOptions : Options := ∅
  extensions : Options := ∅
  deriving DecidableEq

/-- `ssh.UserCert`. -/
def userCert : UInt32 := 1

/-- `ssh.CertTimeInfinity`, the end of a validity window that has none. -/
def certTimeInfinity : UInt64 := 0xffffffffffffffff

/-- A certificate: its whole wire form, and what is signed in it. -/
structure Certificate where
  wire : Bytes
  certType : UInt32 := userCert
  validPrincipals : List Bytes := []
  validAfter : UInt64 := 0
  validBefore : UInt64 := certTimeInfinity
  permissions : Permissions := {}
  /-- The wire form of the key that signed it. -/
  signatureKey : Bytes

/-- A key that a client offers, or that a configuration lists. -/
inductive PublicKey where
  | plain (wire : Bytes)
  | certificate (cert : Certificate)

def PublicKey.marshal : PublicKey → Bytes
  | .plain wire => wire
  | .certificate cert => cert.wire

/-- Why a login is refused. -/
inductive AuthError where
  /-- Two values of `source-address`, of which only one could be enforced. -/
  | sourceAddress (got want : Bytes)
  | message (text : Bytes)
  deriving DecidableEq

/-- The critical option that the library itself enforces, from the permissions of a login. -/
def sourceAddress : Bytes := text "source-address"

/-- `ssh.CertChecker`, as far as the front-end fills it in. -/
structure CertChecker where
  supportedCriticalOptions : List Bytes := []
  isUserAuthority : Bytes → Bool := fun _ => false
  userKeyFallback : Option (Bytes → PublicKey → Except AuthError Permissions) := none

/-- The methods of `CertChecker` that the front-end calls, at the time of a login. -/
structure Ssh where
  checkCert : CertChecker → Bytes → Certificate → Except AuthError Unit
  authenticate : CertChecker → Bytes → PublicKey → Except AuthError Permissions

/-- `CheckCert` passes the certificate for the user, called on a checker that supports no
critical option but source-address.
-/
def Ssh.Passes (ssh : Ssh) (user : Bytes) (cert : Certificate) : Prop :=
  ∃ c : CertChecker, (∀ name ∈ c.supportedCriticalOptions, name = sourceAddress)
    ∧ ssh.checkCert c user cert = .ok ()

-----------------------------------------------------------------------------------------
-- What is assumed of the library
-----------------------------------------------------------------------------------------

/-- Whose signatures verify, and the time. -/
structure Surroundings where
  verifies : Certificate → Bool
  unixNow : Int

/-- A certificate in order, for a user: signed, in its validity window, with the user among its
principals if it lists any, and with no critical option but source-address and those supported.
-/
structure Checked (env : Surroundings) (supported : List Bytes) (user : Bytes)
    (cert : Certificate) : Prop where
  signed : env.verifies cert = true
  begun : (cert.validAfter.toNat : Int) ≤ env.unixNow
  unexpired : cert.validBefore = certTimeInfinity ∨ env.unixNow < cert.validBefore.toNat
  principal : cert.validPrincipals = [] ∨ user ∈ cert.validPrincipals
  options : ∀ name ∈ cert.permissions.criticalOptions.keys,
    name = sourceAddress ∨ name ∈ supported

/-- The checker is sound: what passes `CheckCert` is in order, and `Authenticate` admits a
certificate only if it is a user's, an authority signed it and it passes `CheckCert`, with the
permissions of the certificate.
-/
structure Ssh.Sound (ssh : Ssh) (env : Surroundings) : Prop where
  checkCert : ∀ {c user cert}, ssh.checkCert c user cert = .ok ()
    → Checked env c.supportedCriticalOptions user cert
  authenticate : ∀ {c user cert perms}, ssh.authenticate c user (.certificate cert) = .ok perms
    → cert.certType = userCert ∧ c.isUserAuthority cert.signatureKey = true
      ∧ ssh.checkCert c user cert = .ok () ∧ perms = cert.permissions

/-- `Authenticate` does what it is documented to do: a plain key is the fallback's to judge, and
the certificates that it admits are just those of `Ssh.Sound`.
-/
structure Ssh.Authenticates (ssh : Ssh) : Prop where
  plain : ∀ c user wire perms, ssh.authenticate c user (.plain wire) = .ok perms
    ↔ ∃ fallback, c.userKeyFallback = some fallback ∧ fallback user (.plain wire) = .ok perms
  certificate : ∀ c user cert perms, ssh.authenticate c user (.certificate cert) = .ok perms
    ↔ cert.certType = userCert ∧ c.isUserAuthority cert.signatureKey = true
      ∧ ssh.checkCert c user cert = .ok () ∧ perms = cert.permissions

/-- What passes is in order, with no critical option but source-address. -/
theorem Ssh.Sound.checked_of_passes {ssh : Ssh} {env : Surroundings} {user : Bytes}
    {cert : Certificate} (sound : ssh.Sound env) (passes : ssh.Passes user cert)
    : Checked env [] user cert := by
  obtain ⟨c, supports, passed⟩ := passes
  have checked := sound.checkCert passed
  exact { checked with
    options := fun name listed => .inl ((checked.options name listed).elim id (supports name)) }

/-- What comes after a check is reached by what passes it. -/
theorem refuse_ok_iff {ε α : Type} {p : Prop} [Decidable p] {err : ε} {rest : Except ε α}
    {value : α}
    : (if p then .error err else rest) = .ok value ↔ ¬ p ∧ rest = .ok value := by
  by_cases refused : p
  · simp [refused]
  · simp [refused]

theorem bind_ok {ε α β : Type} {first : Except ε α} {rest : α → Except ε β} {value : β}
    (succeeds : (first >>= rest) = .ok value)
    : ∃ middle, first = .ok middle ∧ rest middle = .ok value := by
  cases first with
  | error err => cases succeeds
  | ok middle => exact ⟨middle, rfl, succeeds⟩

-----------------------------------------------------------------------------------------
-- A library that keeps to it
-----------------------------------------------------------------------------------------

instance (env : Surroundings) (supported : List Bytes) (user : Bytes) (cert : Certificate)
    : Decidable (Checked env supported user cert) :=
  decidable_of_iff
    (env.verifies cert = true ∧ (cert.validAfter.toNat : Int) ≤ env.unixNow
      ∧ (cert.validBefore = certTimeInfinity ∨ env.unixNow < cert.validBefore.toNat)
      ∧ (cert.validPrincipals = [] ∨ user ∈ cert.validPrincipals)
      ∧ ∀ name ∈ cert.permissions.criticalOptions.keys, name = sourceAddress ∨ name ∈ supported)
    ⟨fun all => ⟨all.1, all.2.1, all.2.2.1, all.2.2.2.1, all.2.2.2.2⟩,
      fun checked => ⟨checked.signed, checked.begun, checked.unexpired, checked.principal,
        checked.options⟩⟩

/-- A library that passes what is in order and carries supported options alone. -/
def Ssh.strict (env : Surroundings) : Ssh where
  checkCert := checkCert
  authenticate c user
    | .plain wire =>
        match c.userKeyFallback with
        | none => .error (.message (text "normal key pairs not accepted"))
        | some fallback => fallback user (.plain wire)
    | .certificate cert =>
        if cert.certType = userCert ∧ c.isUserAuthority cert.signatureKey = true
            ∧ checkCert c user cert = .ok () then .ok cert.permissions
        else .error (.message (text "certificate refused"))
where
  checkCert (c : CertChecker) (user : Bytes) (cert : Certificate) : Except AuthError Unit :=
    if Checked env c.supportedCriticalOptions user cert
        ∧ ∀ name ∈ cert.permissions.criticalOptions.keys, name ∈ c.supportedCriticalOptions then
      .ok ()
    else .error (.message (text "certificate refused"))

theorem Ssh.strict_authenticates (env : Surroundings) : (Ssh.strict env).Authenticates where
  plain c user wire perms := by
    cases fallback : c.userKeyFallback <;> simp [Ssh.strict, fallback]
  certificate c user cert perms := by
    simp only [Ssh.strict]
    split
    · rename_i admits
      simp [admits, @eq_comm _ perms]
    · rename_i refused
      exact iff_of_false (by simp) fun admits => refused ⟨admits.1, admits.2.1, admits.2.2.1⟩

theorem Ssh.strict_sound (env : Surroundings) : (Ssh.strict env).Sound env where
  checkCert {c user cert} passed := by
    simp only [Ssh.strict, Ssh.strict.checkCert] at passed
    split at passed
    · rename_i admits
      exact admits.1
    · cases passed
  authenticate := ((Ssh.strict_authenticates env).certificate _ _ _ _).mp

end SftpServer.Sshd
