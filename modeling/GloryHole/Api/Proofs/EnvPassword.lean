import GloryHole.Api.Auth
import GloryHole.Config.Proofs.RoundTrip

/-!
# The password of the environment

A password in the environment is meant to replace the one of the file.  The file's own
password is hashed before the environment is read, and a hash that is there already is
neither replaced nor, when a password is checked, passed over.
-/

namespace GloryHole.Api

open Go
open Config (AuthConfig Config Env Yaml load migrated load_auth)

structure Bcrypt where
  generate : GoString → Option GoString
  compare : GoString → GoString → Bool

/-- What bcrypt documents: passwords of up to 72 bytes are hashed to a text without blanks
at its ends, and the hash of a password accepts exactly this password. -/
structure Bcrypt.Lawful (b : Bcrypt) : Prop where
  generate_eq_none : ∀ x, b.generate x = none ↔ 72 < x.length
  compare_generate : ∀ x h q, b.generate x = some h → (b.compare h q = true ↔ q = x)
  trim_generate : ∀ x h, b.generate x = some h → trimSpace h = h ∧ h ≠ []

theorem Bcrypt.Lawful.exists_generate {b : Bcrypt} (hb : b.Lawful) {x : GoString}
    (hlength : x.length ≤ 72) : ∃ h, b.generate x = some h := by
  rw [← Option.isSome_iff_exists, Option.isSome_iff_ne_none, ne_eq, hb.generate_eq_none]
  omega

section

variable {b : Bcrypt} {lower : Nat → Nat} {s : AuthServer} {a : AuthConfig} {env : Env}
  {p q : GoString}

/-- The password and the hash the server is left with are those of the section, the hash
trimmed, if there is a user and one of the two. -/
theorem validateUserPasswordInput_applyAuthConfig (henabled : a.enabled)
    (huser : trimSpace a.username ≠ [])
    (hcredentials : a.password ≠ [] ∨ trimSpace a.passwordHash ≠ []) :
    (s.applyAuthConfig lower a).validateUserPasswordInput b.compare (trimSpace a.username) q =
      if trimSpace a.passwordHash ≠ [] then b.compare (trimSpace a.passwordHash) q
      else decide (q = a.password) := by
  have hbasic : a.enabled ∧ (trimSpace a.apiKey ≠ [] ∨
      trimSpace a.username ≠ [] ∧ (a.password ≠ [] ∨ trimSpace a.passwordHash ≠ [])) :=
    ⟨henabled, Or.inr ⟨huser, hcredentials⟩⟩
  simp only [AuthServer.applyAuthConfig, if_pos hbasic, AuthServer.validateUserPasswordInput,
    matchBasicCredentials]
  grind

/-- The hash that is in force once the environment has set the password `p`. -/
theorem effective_credentials (hpass : env.basicPass = some p) :
    (a.effective b.generate env).enabled = true ∧
      ((a.effective b.generate env).password, (a.effective b.generate env).passwordHash) =
        migrated b.generate p (migrated b.generate a.password a.passwordHash).2 := by
  simp [AuthConfig.effective, AuthConfig.normalize_eq, AuthConfig.override_eq, hpass]

/-- The server accepts `p` alone if the hash in force is the hash of `p`. -/
theorem accepts_of_generate (hb : b.Lawful) {x h : GoString} (hgenerate : b.generate x = some h)
    (henabled : a.enabled) (huser : trimSpace a.username ≠ []) (hhash : a.passwordHash = h) :
    (s.applyAuthConfig lower a).validateUserPasswordInput b.compare (trimSpace a.username) q =
      true ↔ q = x := by
  obtain ⟨htrim, hne⟩ := hb.trim_generate x h hgenerate
  have hforce : trimSpace a.passwordHash ≠ [] := by rw [hhash, htrim]; exact hne
  rw [validateUserPasswordInput_applyAuthConfig henabled huser (Or.inr hforce), if_pos hforce,
    hhash, htrim]
  exact hb.compare_generate x h q hgenerate

/-- Where the password `p` of the environment takes effect: the file has neither a password
that can be hashed nor a hash, or what it has accepts `p` and nothing else. -/
def TakesEffect (b : Bcrypt) (a : AuthConfig) (p : GoString) : Prop :=
  if a.passwordHash = [] then a.password = [] ∨ 72 < a.password.length ∨ a.password = p
  else trimSpace a.passwordHash ≠ [] → ∀ q, b.compare (trimSpace a.passwordHash) q ↔ q = p

end

/-- A load with the password `p` in the environment and a user leaves a server that accepts
`p` alone, exactly where the file lets it take effect. -/
theorem envPassword_accepted_iff {δ : Type} (b : Bcrypt) (hb : b.Lawful) (yaml : Yaml δ)
    (lower : Nat → Nat) (s : AuthServer) (env : Env) (data : δ) (raw cfg : Config)
    (p : GoString) (hraw : yaml.unmarshal data = .ok raw)
    (hload : load b.generate yaml env data = .ok cfg) (hpass : env.basicPass = some p)
    (hne : p ≠ []) (hlength : p.length ≤ 72) (huser : trimSpace cfg.auth.username ≠ []) :
    (∀ q, (s.applyAuthConfig lower cfg.auth).validateUserPasswordInput b.compare
        (trimSpace cfg.auth.username) q = true ↔ q = p) ↔ TakesEffect b raw.auth p := by
  obtain ⟨henabled, hcredentials⟩ := @effective_credentials b raw.auth env p hpass
  rw [← load_auth hraw hload] at henabled hcredentials
  obtain ⟨h, hgenerate⟩ := hb.exists_generate hlength
  have hfresh : migrated b.generate p [] = ([], h) := by simp [migrated, hne, hgenerate]
  unfold TakesEffect
  by_cases hhash : raw.auth.passwordHash = []
  · rw [if_pos hhash]
    by_cases hplain : raw.auth.password = [] ∨ 72 < raw.auth.password.length
    · -- nothing of the file is in the way: the hash in force is the one of `p`
      have hnone : (migrated b.generate raw.auth.password raw.auth.passwordHash).2 = [] := by
        rcases hplain with hempty | hlong
        · simp [migrated, hempty, hhash]
        · simp [migrated, hhash, (hb.generate_eq_none _).mpr hlong]
      rw [hnone, hfresh, Prod.mk.injEq] at hcredentials
      have haccept q := @accepts_of_generate b lower s cfg.auth q hb p h hgenerate henabled huser
        hcredentials.2
      simp only [haccept, implies_true, true_iff]
      tauto
    · -- the file's own password was hashed first
      rw [not_or, not_lt] at hplain
      obtain ⟨h', hgenerate'⟩ := hb.exists_generate hplain.2
      have hown : (migrated b.generate raw.auth.password raw.auth.passwordHash).2 = h' := by
        simp [migrated, hhash, hplain.1, hgenerate']
      have hkept : migrated b.generate p h' = (p, h') := by
        simp [migrated, (hb.trim_generate _ _ hgenerate').2]
      rw [hown, hkept, Prod.mk.injEq] at hcredentials
      have haccept q := @accepts_of_generate b lower s cfg.auth q hb _ h' hgenerate' henabled
        huser hcredentials.2
      simp only [haccept]
      constructor
      · intro hall
        exact Or.inr (Or.inr ((hall raw.auth.password).mp rfl))
      · rintro (hempty | hlong | rfl)
        · exact absurd hempty hplain.1
        · omega
        · exact fun q => Iff.rfl
  · -- the file's hash stays, and `p` stays plain
    have hkept : migrated b.generate raw.auth.password raw.auth.passwordHash =
        (raw.auth.password, raw.auth.passwordHash) := by simp [migrated, hhash]
    have hkept' : migrated b.generate p raw.auth.passwordHash = (p, raw.auth.passwordHash) := by
      simp [migrated, hhash]
    rw [hkept, hkept', Prod.mk.injEq] at hcredentials
    have haccept q := @validateUserPasswordInput_applyAuthConfig b lower s cfg.auth q henabled huser
      (Or.inl (by rw [hcredentials.1]; exact hne))
    rw [if_neg hhash]
    simp only [haccept, hcredentials.1, hcredentials.2]
    by_cases hblank : trimSpace raw.auth.passwordHash = []
    · simp [hblank]
    · simp [hblank]

/-! ## A password that has no effect -/

def plainBcrypt : Bcrypt :=
  { generate := fun x => if x.length ≤ 72 then some (byte '$' :: x ++ [byte '$']) else none
    compare := fun h q => h = byte '$' :: q ++ [byte '$'] }

theorem trimSpace_dollars (x : GoString) :
    trimSpace (byte '$' :: x ++ [byte '$']) = byte '$' :: x ++ [byte '$'] := by
  have hleading : leadingSpace (byte '$' :: x ++ [byte '$']) = none := by
    simp [leadingSpace, spaceRunes, byte]
  have htrailing : trailingSpace (byte '$' :: x ++ [byte '$']) = none := by
    simp [trailingSpace, spaceRunes, byte, List.isSuffixOf]
  have hleft (fuel : Nat) : trimLeftSpace fuel (byte '$' :: x ++ [byte '$']) =
      byte '$' :: x ++ [byte '$'] := by
    cases fuel with
    | zero => rfl
    | succ fuel => rw [trimLeftSpace, hleading]
  rw [trimSpace, hleft]
  cases hlength : (byte '$' :: x ++ [byte '$']).length with
  | zero => rfl
  | succ fuel => rw [trimRightSpace, htrailing]

theorem plainBcrypt_lawful : plainBcrypt.Lawful where
  generate_eq_none x := by simp [plainBcrypt]
  compare_generate x h q hgenerate := by
    simp only [plainBcrypt, Option.ite_none_right_eq_some, Option.some.injEq] at hgenerate
    simp [plainBcrypt, ← hgenerate.2, eq_comm]
  trim_generate x h hgenerate := by
    simp only [plainBcrypt, Option.ite_none_right_eq_some, Option.some.injEq] at hgenerate
    rw [← hgenerate.2]
    exact ⟨trimSpace_dollars x, by simp⟩

def userFile (password : GoString) : Config :=
  { auth := { username := lit "admin", password := password } }

def passwordEnv : Env := { basicPass := some (lit "new") }

def loadedUser (password : GoString) : Config :=
  { Config.applyDefaults plainBcrypt.generate (userFile password) with
    auth := (userFile password).auth.effective plainBcrypt.generate passwordEnv }

theorem envPassword_accepted_iff_noPassword :
    (∀ q, (AuthServer.applyAuthConfig id {} (loadedUser []).auth).validateUserPasswordInput
        plainBcrypt.compare (trimSpace (loadedUser []).auth.username) q = true ↔ q = lit "new") ↔
      TakesEffect plainBcrypt (userFile []).auth (lit "new") :=
  envPassword_accepted_iff plainBcrypt plainBcrypt_lawful Config.plainYaml id {} passwordEnv
    (userFile []) (userFile []) (loadedUser []) (lit "new") rfl rfl rfl (by decide) (by decide)
    (by decide)

/-- The file has the password `old`: the server refuses the environment's password and goes
on accepting the file's. -/
theorem envPassword_ignored :
    load plainBcrypt.generate Config.plainYaml passwordEnv (userFile (lit "old")) =
        .ok (loadedUser (lit "old")) ∧
      let server := AuthServer.applyAuthConfig id {} (loadedUser (lit "old")).auth
      server.validateUserPasswordInput plainBcrypt.compare (lit "admin") (lit "new") = false ∧
        server.validateUserPasswordInput plainBcrypt.compare (lit "admin") (lit "old") = true :=
  ⟨rfl, rfl, rfl⟩

end GloryHole.Api
