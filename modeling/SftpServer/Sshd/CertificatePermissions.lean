import SftpServer.Foundations.Interaction
import SftpServer.Sshd.Admission

/-! What a login by `CertificateFor` is allowed. The callback is asked about no certificate but
a user's that passed `CheckCert`, and what it returns is what the login gets, with the
certificate's source-address beside it.
-/

namespace SftpServer.Sshd

open SftpServer.Foundations
open SftpServer.Wire

/-- What `CertificateFor` is called with. -/
structure Consultation where
  user : Bytes
  cert : Certificate

/-- What it returns: an error, or permissions that may be nil. -/
abbrev Consultation.Answer (_ : Consultation) : Type := Except AuthError (Option Permissions)

/-- `selfSigned`, with the call of the callback as a step of its own. -/
def selfSignedSteps (ssh : Ssh) (user : Bytes) (cert : Certificate)
    : Interaction Consultation.Answer (Except AuthError Permissions) :=
  if cert.certType ≠ userCert then
    .ret (.error (.message (text "sshd: a host certificate offered as a user's")))
  else
    let checker : CertChecker := { supportedCriticalOptions := [sourceAddress] }
    match ssh.checkCert checker user cert with
    | .error err => .ret (.error err)
    | .ok () =>
        .ask ⟨user, cert⟩ fun
          | .error err => .ret (.error err)
          | .ok perms => .ret (withSourceAddress cert (perms.getD {}))

/-- A user certificate that passes `CheckCert`. -/
def SelfSignedPasses (ssh : Ssh) (user : Bytes) (cert : Certificate) : Prop :=
  cert.certType = userCert
  ∧ ssh.checkCert { supportedCriticalOptions := [sourceAddress] } user cert = .ok ()

section

variable {ssh : Ssh} {user : Bytes} {cert : Certificate}

theorem selfSignedSteps_passed (passes : SelfSignedPasses ssh user cert)
    : selfSignedSteps ssh user cert
      = .ask ⟨user, cert⟩ fun
          | .error err => .ret (.error err)
          | .ok perms => .ret (withSourceAddress cert (perms.getD {})) := by
  unfold selfSignedSteps
  rw [if_neg (not_not.mpr passes.1)]
  simp only [passes.2]

theorem selfSignedSteps_failed (fails : ¬SelfSignedPasses ssh user cert)
    : ∃ err, selfSignedSteps ssh user cert = .ret (.error err) := by
  unfold selfSignedSteps
  split
  · exact ⟨_, rfl⟩
  rename_i isUser
  cases checked : ssh.checkCert { supportedCriticalOptions := [sourceAddress] } user cert with
  | error err => exact ⟨err, by simp only [checked]⟩
  | ok value => exact absurd ⟨not_not.mp isUser, checked⟩ fails

/-- The callback is asked once, if the certificate passes, and not at all otherwise. -/
theorem selfSignedSteps_asks {calls : List (Exchange Consultation.Answer)}
    {result : Except AuthError Permissions}
    (runs : (selfSignedSteps ssh user cert).Runs calls result)
    : (SelfSignedPasses ssh user cert ∧ ∃ answered, calls = [⟨⟨user, cert⟩, answered⟩])
      ∨ (¬SelfSignedPasses ssh user cert ∧ calls = []) := by
  by_cases passes : SelfSignedPasses ssh user cert
  · rw [selfSignedSteps_passed passes] at runs
    obtain ⟨answered, rest, rfl, left⟩ := Interaction.runs_ask_iff.mp runs
    refine .inl ⟨passes, answered, ?_⟩
    cases answered with
    | error err => rw [(Interaction.runs_ret_iff.mp left).1]
    | ok perms => rw [(Interaction.runs_ret_iff.mp left).1]
  · obtain ⟨err, refused⟩ := selfSignedSteps_failed passes
    rw [refused] at runs
    exact .inr ⟨passes, (Interaction.runs_ret_iff.mp runs).1⟩

/-- The steps answered by a callback are the function with that callback. -/
theorem selfSigned_eq_exec (decide : Bytes → Certificate → Except AuthError (Option Permissions))
    : selfSigned ssh user cert decide
      = ((selfSignedSteps ssh user cert).exec
          (fun _ asked => (decide asked.user asked.cert, ())) ()).1 := by
  unfold selfSigned selfSignedSteps
  split
  · rfl
  cases checked : ssh.checkCert { supportedCriticalOptions := [sourceAddress] } user cert with
  | error err =>
      simp only [checked]
      rfl
  | ok value =>
      simp only [checked, Interaction.exec_ask]
      cases decide user cert with
      | error err => rfl
      | ok perms => rfl

end

/-- Why a login by `CertificateFor` fails: the certificate, the callback, or both together. -/
def Refuses (ssh : Ssh) (user : Bytes) (cert : Certificate)
    (decide : Bytes → Certificate → Except AuthError (Option Permissions)) : Prop :=
  ¬SelfSignedPasses ssh user cert
  ∨ (∃ err, decide user cert = .error err)
  ∨ ∃ returned, decide user cert = .ok returned ∧ Conflicts cert (returned.getD {})

/-- It succeeds when the certificate passes, the callback decides and nothing conflicts. -/
theorem selfSigned_cases (ssh : Ssh) (user : Bytes) (cert : Certificate)
    (decide : Bytes → Certificate → Except AuthError (Option Permissions))
    : (Refuses ssh user cert decide ∧ ∃ err, selfSigned ssh user cert decide = .error err)
      ∨ (¬Refuses ssh user cert decide
        ∧ ∃ returned perms, decide user cert = .ok returned
          ∧ selfSigned ssh user cert decide = .ok perms
          ∧ Grants cert (returned.getD {}) perms) := by
  rw [selfSigned_eq_exec]
  by_cases passes : SelfSignedPasses ssh user cert
  · simp only [selfSignedSteps_passed passes, Interaction.exec_ask]
    cases answered : decide user cert with
    | error err => exact .inl ⟨.inr (.inl ⟨err, answered⟩), err, rfl⟩
    | ok returned =>
        rcases withSourceAddress_cases cert (returned.getD {}) with
          ⟨conflicts, refused⟩ | ⟨agrees, perms, succeeds, granted⟩
        · exact .inl ⟨.inr (.inr ⟨returned, answered, conflicts⟩), refused⟩
        · refine .inr ⟨?_, returned, perms, rfl, succeeds, granted⟩
          rintro (fails | ⟨err, failed⟩ | ⟨other, returns, conflicts⟩)
          · exact fails passes
          · rw [answered] at failed
            exact nomatch failed
          · rw [answered, Except.ok.injEq] at returns
            exact agrees (returns ▸ conflicts)
  · obtain ⟨err, refused⟩ := selfSignedSteps_failed passes
    exact .inl ⟨.inl passes, err, by rw [refused]; rfl⟩

/-- `CertificateFor` decides exactly what a login is allowed: it is called only for a user
certificate that passed `CheckCert`; the login fails just if the certificate does not pass, the
callback fails or the two disagree on source-address; and the permissions are the callback's,
with the certificate's source-address if it has one.
-/
theorem certificateFor_permissions (ssh : Ssh) (user : Bytes) (cert : Certificate)
    (decide : Bytes → Certificate → Except AuthError (Option Permissions))
    : (∀ calls result, (selfSignedSteps ssh user cert).Runs calls result
        → ∀ call ∈ calls, call.question = ⟨user, cert⟩ ∧ SelfSignedPasses ssh user cert)
      ∧ selfSigned ssh user cert decide
        = ((selfSignedSteps ssh user cert).exec
            (fun _ asked => (decide asked.user asked.cert, ())) ()).1
      ∧ ((∃ err, selfSigned ssh user cert decide = .error err)
        ↔ Refuses ssh user cert decide)
      ∧ ∀ perms, selfSigned ssh user cert decide = .ok perms
        → ∃ returned, decide user cert = .ok returned ∧ Grants cert (returned.getD {}) perms := by
  refine ⟨?_, selfSigned_eq_exec decide, ?_, ?_⟩
  · intro calls result runs call member
    rcases selfSignedSteps_asks runs with ⟨passes, answered, rfl⟩ | ⟨_, rfl⟩
    · rw [List.mem_singleton.mp member]
      exact ⟨rfl, passes⟩
    · exact nomatch member
  · rcases selfSigned_cases ssh user cert decide with ⟨refuses, failed⟩ | ⟨admits, _, _, _, ok, _⟩
    · exact iff_of_true failed refuses
    · exact iff_of_false (fun ⟨_, failed⟩ => by simp [ok] at failed) admits
  · intro perms succeeds
    rcases selfSigned_cases ssh user cert decide with
      ⟨_, _, failed⟩ | ⟨_, returned, granted, answered, ok, grants⟩
    · rw [failed] at succeeds
      exact nomatch succeeds
    · rw [ok, Except.ok.injEq] at succeeds
      exact ⟨returned, answered, succeeds ▸ grants⟩

/-- A callback that returns nil does not loosen the certificate's source-address. -/
theorem certificateFor_permissions_nil
    : ∃ perms,
        selfSigned (.strict (atTime 100)) (text "alice") pinned (fun _ _ => .ok none) = .ok perms
      ∧ perms.criticalOptions.lookup sourceAddress = some (text "10.0.0.0/8")
      ∧ perms.extensions = ∅ := by
  obtain ⟨_, _, _, granted⟩ :=
    certificateFor_permissions (.strict (atTime 100)) (text "alice") pinned fun _ _ => .ok none
  obtain ⟨perms, admitted⟩ : ∃ perms,
      selfSigned (.strict (atTime 100)) (text "alice") pinned (fun _ _ => .ok none) = .ok perms :=
    ⟨_, rfl⟩
  obtain ⟨returned, answered, grants⟩ := granted perms admitted
  cases answered
  exact ⟨perms, admitted, grants.address, grants.extensions⟩

end SftpServer.Sshd
