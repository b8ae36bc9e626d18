import SftpServer.Sshd.Config

/-! Which certificates the front-end lets in. On both certificate paths, by a trusted authority
and by `CertificateFor`, a certificate is checked and its source-address is enforced. With
neither of them configured a certificate is judged as any key is, by its wire form.
-/

namespace SftpServer.Sshd

open SftpServer.Foundations
open SftpServer.Wire

/-- A key is admitted, with these permissions. -/
def FrontEnd.Admits (front : FrontEnd) (user : Bytes) (key : PublicKey) (perms : Permissions)
    : Prop :=
  ∃ callback, front.cfg.publicKeyCallback = some callback ∧ callback user key = .ok perms

/-- What the issuer of a certificate relies on: it passed `CheckCert` for the user, so it is in
order and has no critical option but source-address, and the login is bound to the
source-address it carries.
-/
structure Upheld (ssh : Ssh) (env : Surroundings) (user : Bytes) (cert : Certificate)
    (perms : Permissions) : Prop where
  passed : ssh.Passes user cert
  checked : Checked env [] user cert
  address : ∀ want, cert.permissions.criticalOptions.lookup sourceAddress = some want
    → perms.criticalOptions.lookup sourceAddress = some want

/-- Two values of source-address of which only one could be enforced. -/
def Conflicts (cert : Certificate) (perms : Permissions) : Prop :=
  ∃ want got, cert.permissions.criticalOptions.lookup sourceAddress = some want
    ∧ perms.criticalOptions.lookup sourceAddress = some got ∧ got ≠ want

/-- The callback's permissions, but for the certificate's source-address if it has one. -/
structure Grants (cert : Certificate) (returned perms : Permissions) : Prop where
  extensions : perms.extensions = returned.extensions
  others : ∀ name ≠ sourceAddress,
    perms.criticalOptions.lookup name = returned.criticalOptions.lookup name
  address : perms.criticalOptions.lookup sourceAddress
    = (cert.permissions.criticalOptions.lookup sourceAddress).or
        (returned.criticalOptions.lookup sourceAddress)

/-- The certificate's value, put beside the callback's options. -/
theorem grants_insert {cert : Certificate} (returned : Permissions) {want : Bytes}
    (carries : cert.permissions.criticalOptions.lookup sourceAddress = some want)
    : Grants cert returned
        { returned with criticalOptions := returned.criticalOptions.insert sourceAddress want }
    where
  extensions := rfl
  others _ other := AList.lookup_insert_ne other
  address := by rw [carries, Option.some_or]; exact AList.lookup_insert _

/-- Either the two conflict or the result is what is granted. -/
theorem withSourceAddress_cases (cert : Certificate) (returned : Permissions)
    : (Conflicts cert returned ∧ ∃ err, withSourceAddress cert returned = .error err)
      ∨ (¬Conflicts cert returned
        ∧ ∃ perms, withSourceAddress cert returned = .ok perms ∧ Grants cert returned perms) := by
  cases carries : cert.permissions.criticalOptions.lookup sourceAddress with
  | none =>
      refine .inr ⟨fun ⟨_, _, wants, _⟩ => by simp [carries] at wants, returned, ?_, rfl,
        fun _ _ => rfl, ?_⟩
      · simp only [withSourceAddress, carries]
      · rw [carries, Option.none_or]
  | some want =>
      have granted := grants_insert returned carries
      cases set : returned.criticalOptions.lookup sourceAddress with
      | none =>
          refine .inr ⟨fun ⟨_, _, _, sets, _⟩ => by simp [set] at sets, _, ?_, granted⟩
          simp only [withSourceAddress, carries, set]
      | some got =>
          by_cases same : got = want
          · refine .inr ⟨?_, _, ?_, granted⟩
            · rintro ⟨_, _, wants, sets, differ⟩
              rw [carries, Option.some.injEq] at wants
              rw [set, Option.some.injEq] at sets
              exact differ (by rw [← sets, ← wants, same])
            · simp only [withSourceAddress, carries, set]
              rw [if_neg (not_not.mpr same)]
          · refine .inl ⟨⟨want, got, carries, set, same⟩, .sourceAddress got want, ?_⟩
            simp only [withSourceAddress, carries, set]
            rw [if_pos same]

theorem withSourceAddress_address {cert : Certificate} {perms out : Permissions}
    (kept : withSourceAddress cert perms = .ok out) {want : Bytes}
    (carries : cert.permissions.criticalOptions.lookup sourceAddress = some want)
    : out.criticalOptions.lookup sourceAddress = some want := by
  rcases withSourceAddress_cases cert perms with ⟨_, _, failed⟩ | ⟨_, granted, ok, grants⟩
  · rw [failed] at kept
    exact nomatch kept
  · rw [ok, Except.ok.injEq] at kept
    rw [← kept, grants.address, carries, Option.some_or]

section Checks

variable {ssh : Ssh} {env : Surroundings} {user : Bytes} {cert : Certificate}
  {perms : Permissions}

/-- Whatever `CertificateFor` decides, the certificate has passed, and its source-address is
enforced.
-/
theorem selfSigned_upheld (sound : ssh.Sound env)
    {decide : Bytes → Certificate → Except AuthError (Option Permissions)}
    (admits : selfSigned ssh user cert decide = .ok perms)
    : Upheld ssh env user cert perms := by
  simp only [selfSigned, refuse_ok_iff] at admits
  obtain ⟨_, admits⟩ := admits
  obtain ⟨_, passed, admits⟩ := bind_ok admits
  obtain ⟨returned, decides, kept⟩ := bind_ok admits
  have passes : ssh.Passes user cert :=
    ⟨{ supportedCriticalOptions := [sourceAddress] }, by simp, passed⟩
  exact ⟨passes, sound.checked_of_passes passes, fun _ => withSourceAddress_address kept⟩

theorem authenticate_upheld (sound : ssh.Sound env) {c : CertChecker}
    (plain : c.supportedCriticalOptions = [])
    (admits : ssh.authenticate c user (.certificate cert) = .ok perms)
    : Upheld ssh env user cert perms := by
  obtain ⟨_, _, passed, rfl⟩ := sound.authenticate admits
  have passes : ssh.Passes user cert := ⟨c, by simp [plain], passed⟩
  exact ⟨passes, sound.checked_of_passes passes, fun _ => id⟩

/-- With no permissions, a certificate is upheld if it has no source-address. -/
theorem upheld_empty_iff (sound : ssh.Sound env)
    : Upheld ssh env user cert {}
      ↔ ssh.Passes user cert
        ∧ cert.permissions.criticalOptions.lookup sourceAddress = none := by
  constructor
  · intro upheld
    refine ⟨upheld.passed, ?_⟩
    by_contra carries
    obtain ⟨want, carries⟩ := Option.ne_none_iff_exists'.mp carries
    cases upheld.address want carries
  · intro ⟨passes, unpinned⟩
    refine ⟨passes, sound.checked_of_passes passes, fun want carries => ?_⟩
    rw [unpinned] at carries
    cases carries

end Checks

/-- A key, or certificate, that a configuration admits for what it is. -/
def Config.Lists (cfg : Config) (user : Bytes) (key : PublicKey) : Prop :=
  (∃ admits, cfg.publicKeyFor = some admits ∧ admits user key = true)
  ∨ key.marshal ∈ cfg.allowed

theorem byKey_ok_iff (cfg : Config) (user : Bytes) (key : PublicKey) (perms : Permissions)
    : cfg.byKey user key = .ok perms ↔ perms = {} ∧ cfg.Lists user key := by
  have judged : (cfg.publicKeyFor.any fun admits => admits user key) = true
      ↔ ∃ admits, cfg.publicKeyFor = some admits ∧ admits user key = true := by
    cases cfg.publicKeyFor <;> simp
  rw [Config.byKey, Config.Lists, ← judged, and_comm]
  split
  · rename_i admitted
    exact ⟨fun same => ⟨.inl admitted, (Except.ok.inj same).symm⟩, fun both => by rw [both.2]⟩
  · rename_i refused
    split
    · rename_i listed
      have listed := List.contains_iff_mem.mp listed
      exact ⟨fun same => ⟨.inr listed, (Except.ok.inj same).symm⟩, fun both => by rw [both.2]⟩
    · rename_i unlisted
      have unlisted := fun listed => unlisted (List.contains_iff_mem.mpr listed)
      exact iff_of_false (fun same => by cases same) fun both => both.1.elim refused unlisted

section Callback

variable {cfg : Config} {ssh : Ssh} {env : Surroundings} {user : Bytes} {cert : Certificate}
  {perms : Permissions}

theorem byChecker_upheld (sound : ssh.Sound env) (authorities : cfg.trustedUserCAs ≠ [])
    (admits : cfg.byChecker ssh user (.certificate cert) = .ok perms)
    : Upheld ssh env user cert perms := by
  have some : cfg.trustedUserCAs.isEmpty = false := List.isEmpty_eq_false_iff.mpr authorities
  simp only [Config.byChecker, Config.checker, some, Bool.false_eq_true, if_false] at admits
  exact authenticate_upheld sound rfl admits

/-- With an authority or `CertificateFor`, no certificate is judged by its wire form. -/
theorem publicKey_upheld (sound : ssh.Sound env)
    (configured : cfg.trustedUserCAs ≠ [] ∨ cfg.certificateFor ≠ none)
    (admits : cfg.publicKey ssh user (.certificate cert) = .ok perms)
    : Upheld ssh env user cert perms := by
  unfold Config.publicKey at admits
  cases callback : cfg.certificateFor with
  | none =>
      rw [callback] at admits
      exact byChecker_upheld sound (configured.resolve_right (by simp [callback])) admits
  | some decide =>
      simp only [callback] at admits
      split at admits
      · rename_i byCA
        refine byChecker_upheld sound (fun none => ?_) admits
        simp [Config.trusted, none] at byCA
      · exact selfSigned_upheld sound admits

theorem Config.Lists.keys {key : PublicKey} (lists : cfg.Lists user key) : cfg.keys = true := by
  rcases lists with ⟨admits, judges, _⟩ | listed
  · simp [Config.keys, judges]
  · have some : cfg.authorizedKeys ≠ [] := by
      intro none
      simp [Config.allowed, none] at listed
    simp [Config.keys, some]

/-- With neither, it is judged as a key. -/
theorem publicKey_byKey (noCAs : cfg.trustedUserCAs = [])
    (noCallback : cfg.certificateFor = none)
    : cfg.publicKey ssh user (.certificate cert) = .ok perms
      ↔ perms = {} ∧ cfg.Lists user (.certificate cert) := by
  simp only [Config.publicKey, noCallback, Config.byChecker, Config.checker, noCAs,
    List.isEmpty_nil, if_true]
  cases some : cfg.keys with
  | true =>
      rw [if_pos rfl]
      exact byKey_ok_iff cfg user _ perms
  | false =>
      refine iff_of_false (by simp) fun both => ?_
      rw [both.2.keys] at some
      cases some

/-- What is not offered would admit nothing. -/
theorem publicKey_offered {key : PublicKey} (admits : cfg.publicKey ssh user key = .ok perms)
    : (cfg.checker.isSome || cfg.keys || cfg.certificateFor.isSome) = true := by
  by_contra nothing
  simp only [Bool.or_eq_true, not_or, Bool.not_eq_true, Option.isSome_eq_false_iff,
    Option.isNone_iff_eq_none] at nothing
  obtain ⟨⟨noChecker, noKeys⟩, noCallback⟩ := nothing
  simp [Config.publicKey, Config.byChecker, noChecker, noKeys, noCallback] at admits

theorem new_admits_iff {srv : Option Sftp.Server} {front : FrontEnd} {key : PublicKey}
    (made : new ssh srv cfg = .ok front)
    : front.Admits user key perms ↔ cfg.publicKey ssh user key = .ok perms := by
  simp only [new, refuse_ok_iff, Except.ok.injEq] at made
  obtain ⟨_, _, _, rfl⟩ := made
  constructor
  · intro ⟨callback, offered, admits⟩
    simp only [Option.ite_none_right_eq_some, Option.some.injEq] at offered
    rw [← offered.2] at admits
    exact admits
  · intro admits
    exact ⟨_, if_pos (publicKey_offered admits), admits⟩

end Callback

/-- In every front-end a certificate that is admitted was checked, and binds the login to its
source-address, unless there is neither an authority nor `CertificateFor` and the configuration
lists the certificate itself: then nothing is checked and nothing is enforced. Of the library it
is assumed that `CheckCert` and `Authenticate` are sound.
-/
theorem certificate_admission_iff (ssh : Ssh) (env : Surroundings) (sound : ssh.Sound env)
    (srv : Option Sftp.Server) (cfg : Config) (front : FrontEnd)
    (made : new ssh srv cfg = .ok front) (user : Bytes) (cert : Certificate)
    : (∀ perms, front.Admits user (.certificate cert) perms → Upheld ssh env user cert perms)
      ↔ (cfg.trustedUserCAs = [] → cfg.certificateFor = none
        → cfg.Lists user (.certificate cert)
        → ssh.Passes user cert
          ∧ cert.permissions.criticalOptions.lookup sourceAddress = none) := by
  simp only [new_admits_iff made]
  constructor
  · intro upholds noCAs noCallback lists
    have admits : cfg.publicKey ssh user (.certificate cert) = .ok {} :=
      (publicKey_byKey noCAs noCallback).mpr ⟨rfl, lists⟩
    exact (upheld_empty_iff sound).mp (upholds {} admits)
  · intro safe perms admits
    by_cases configured : cfg.trustedUserCAs ≠ [] ∨ cfg.certificateFor ≠ none
    · exact publicKey_upheld sound configured admits
    · simp only [not_or, not_not] at configured
      obtain ⟨noCAs, noCallback⟩ := configured
      obtain ⟨rfl, lists⟩ := (publicKey_byKey noCAs noCallback).mp admits
      exact (upheld_empty_iff sound).mpr (safe noCAs noCallback lists)

/-- A time at which every signature verifies. -/
def atTime (unixNow : Int) : Surroundings where
  verifies _ := true
  unixNow

/-- A certificate for `alice`, from one network and until 500. -/
def pinned : Certificate where
  wire := text "certificate"
  validPrincipals := [text "alice"]
  validBefore := 500
  permissions := { criticalOptions := AList.singleton sourceAddress (text "10.0.0.0/8") }
  signatureKey := text "authority"

def exported : Sftp.Server where
  opener := false
  symlinker := false
  truncater := false
  metadataSetter := false
  ro := true

/-- Certificates that no authority signed are admitted, with nothing added to them. -/
def deciding : Config where
  hostKeys := [.plain (text "host")]
  certificateFor := some fun _ _ => .ok none

theorem certificate_admission_decided
    : ∃ front, new (.strict (atTime 100)) (some exported) deciding = .ok front
      ∧ front.Admits (text "alice") (.certificate pinned) pinned.permissions
      ∧ Upheld (.strict (atTime 100)) (atTime 100) (text "alice") pinned pinned.permissions := by
  obtain ⟨front, made⟩
      : ∃ front, new (.strict (atTime 100)) (some exported) deciding = .ok front := ⟨_, rfl⟩
  have admits : front.Admits (text "alice") (.certificate pinned) pinned.permissions :=
    (new_admits_iff made).mpr rfl
  refine ⟨front, made, admits, ?_⟩
  exact (certificate_admission_iff _ (atTime 100) (Ssh.strict_sound _) (some exported) deciding
    front made (text "alice") pinned).mpr (fun _ noCallback => by cases noCallback) _ admits

/-- The certificate itself is listed as a key. -/
def listing : Config where
  hostKeys := [.plain (text "host")]
  authorizedKeys := [.certificate pinned]

/-- The certificate is let in for another user after it has expired, though `CheckCert` passes
it for nobody then; and for its own user, in time, it is let in from anywhere.
-/
theorem listed_certificate_is_unchecked
    : (∃ front, new (.strict (atTime 1000)) (some exported) listing = .ok front
        ∧ front.Admits (text "bob") (.certificate pinned) {}
        ∧ ∀ user, ¬(Ssh.strict (atTime 1000)).Passes user pinned)
      ∧ (∃ front, new (.strict (atTime 100)) (some exported) listing = .ok front
        ∧ front.Admits (text "alice") (.certificate pinned) {}
        ∧ pinned.permissions.criticalOptions.lookup sourceAddress = some (text "10.0.0.0/8")
        ∧ ({} : Permissions).criticalOptions.lookup sourceAddress = none) := by
  have admits : ∀ ssh user, ∃ front, new ssh (some exported) listing = .ok front
      ∧ front.Admits user (.certificate pinned) {} := by
    intro ssh user
    obtain ⟨front, made⟩ : ∃ front, new ssh (some exported) listing = .ok front := ⟨_, rfl⟩
    have judged : listing.publicKey ssh user (.certificate pinned) = .ok {} :=
      (publicKey_byKey rfl rfl).mpr ⟨rfl, .inr (List.mem_singleton_self _)⟩
    exact ⟨front, made, (new_admits_iff made).mpr judged⟩
  obtain ⟨late, madeLate, lateAdmits⟩ := admits (.strict (atTime 1000)) (text "bob")
  obtain ⟨early, madeEarly, earlyAdmits⟩ := admits (.strict (atTime 100)) (text "alice")
  refine ⟨⟨late, madeLate, lateAdmits, fun user passes => ?_⟩, early, madeEarly, earlyAdmits, ?_,
    rfl⟩
  · have unexpired := ((Ssh.strict_sound _).checked_of_passes passes).unexpired
    exact absurd unexpired (by decide)
  · decide

end SftpServer.Sshd
