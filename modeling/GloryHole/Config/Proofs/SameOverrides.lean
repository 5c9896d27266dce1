import GloryHole.Config.Proofs.Loadable

/-!
# Environments that override alike

Two environments that make the same of the authentication section of a file make the same of
it in every later load: what a load leaves is overridden once more by the password only.
-/

namespace GloryHole.Config

open Go

/-- What is documented of bcrypt: the salt does not decide whether a password is refused, and a
hash is not empty. -/
structure Bcrypt {σ : Type} (hash : σ → GoString → Option GoString) : Prop where
  refuses : ∀ salt salt' pass, hash salt pass = none → hash salt' pass = none
  ne_nil : ∀ salt pass, hash salt pass ≠ some []

structure SameOverrides (hash : GoString → Option GoString) (env₁ env₂ : Env) (a : AuthConfig) :
    Prop where
  enabled : (a.enabled || trimSpace env₁.apiKey ≠ [] || trimSpace env₁.basicUser ≠ [] ||
      env₁.basicPass.isSome) =
    (a.enabled || trimSpace env₂.apiKey ≠ [] || trimSpace env₂.basicUser ≠ [] ||
      env₂.basicPass.isSome)
  apiKey : (if trimSpace env₁.apiKey ≠ [] then trimSpace env₁.apiKey else a.apiKey) =
    if trimSpace env₂.apiKey ≠ [] then trimSpace env₂.apiKey else a.apiKey
  username : (if trimSpace env₁.basicUser ≠ [] then trimSpace env₁.basicUser else a.username) =
    if trimSpace env₂.basicUser ≠ [] then trimSpace env₂.basicUser else a.username
  password : env₁.basicPass.getD (a.normalize hash).password =
    env₂.basicPass.getD (a.normalize hash).password

section

variable {hash : GoString → Option GoString} {env env₁ env₂ : Env} {a : AuthConfig}

theorem sameOverrides_iff : SameOverrides hash env₁ env₂ a ↔
    (a.normalize hash).override env₁ = (a.normalize hash).override env₂ := by
  have hfields : (a.normalize hash).enabled = a.enabled ∧ (a.normalize hash).apiKey = a.apiKey ∧
      (a.normalize hash).username = a.username := by
    rw [AuthConfig.normalize_eq]
    exact ⟨rfl, rfl, rfl⟩
  obtain ⟨henabled, hkey, huser⟩ := hfields
  rw [AuthConfig.override_eq, AuthConfig.override_eq]
  simp only [AuthConfig.mk.injEq, henabled, hkey, huser, true_and, and_true]
  constructor
  · intro h
    exact ⟨h.enabled, h.apiKey, h.username, h.password⟩
  · rintro ⟨hon, hkeys, husers, hpass⟩
    exact ⟨hon, hkeys, husers, hpass⟩

theorem SameOverrides.effective_eq (h : SameOverrides hash env₁ env₂ a) :
    a.effective hash env₁ = a.effective hash env₂ := by
  rw [AuthConfig.effective, AuthConfig.effective, sameOverrides_iff.mp h]

theorem SameOverrides.normalize (h : SameOverrides hash env₁ env₂ a) :
    SameOverrides hash env₁ env₂ (a.normalize hash) := by
  rw [sameOverrides_iff, AuthConfig.normalize_eq_self.mpr (AuthConfig.normalize_settled a)]
  exact sameOverrides_iff.mp h

theorem effective_password (env : Env) (a : AuthConfig) :
    (a.effective hash env).password =
      (migrated hash (env.basicPass.getD (a.normalize hash).password)
        (a.normalize hash).passwordHash).1 := by
  rw [AuthConfig.effective, AuthConfig.normalize_eq, AuthConfig.override_eq]

/-- A password that is still plain after the first step stays so. -/
theorem migrated_of_settled (h : a.Settled hash) :
    migrated hash a.password a.passwordHash = (a.password, a.passwordHash) := by
  unfold migrated
  grind [AuthConfig.Settled]

theorem SameOverrides.password_effective (h : SameOverrides hash env₁ env₂ a) :
    env₁.basicPass.getD (a.effective hash env₁).password =
      env₂.basicPass.getD (a.effective hash env₁).password := by
  have hpass := h.password
  have hkept := @migrated_of_settled hash _ (AuthConfig.normalize_settled a)
  rw [effective_password]
  cases h₁ : env₁.basicPass with
  | none =>
    rw [h₁] at hpass
    simp only [Option.getD_none] at hpass ⊢
    rw [hkept]
    exact hpass
  | some pass =>
    rw [h₁] at hpass
    cases h₂ : env₂.basicPass with
    | none =>
      -- The first one sets the password that the file has.
      rw [h₂] at hpass
      simp only [Option.getD_none, Option.getD_some] at hpass ⊢
      rw [hpass, hkept]
    | some pass' =>
      rw [h₂] at hpass
      exact hpass

/-- What a load leaves is overridden alike once more. -/
theorem SameOverrides.effective (h : SameOverrides hash env₁ env₂ a) :
    SameOverrides hash env₁ env₂ (a.effective hash env₁) := by
  rw [sameOverrides_iff, AuthConfig.normalize_eq_self.mpr (AuthConfig.effective_settled env₁ a)]
  have hright := @AuthConfig.override_effective hash env₂ a
  rw [← h.effective_eq, ← h.password_effective] at hright
  rw [AuthConfig.override_effective, hright]

/-- The second load puts the password of the environment beside the hash of the first. -/
theorem effective_effective_password {pass : GoString} (henv : env.basicPass = some pass)
    (hhash : (a.effective hash env).passwordHash ≠ []) :
    ((a.effective hash env).effective hash env).password = pass := by
  rw [effective_password, AuthConfig.normalize_eq_self.mpr (AuthConfig.effective_settled env a),
    henv]
  unfold migrated
  rw [if_neg fun h => hhash h.2]
  rfl

theorem effective_passwordHash (env : Env) (a : AuthConfig) :
    (a.effective hash env).passwordHash =
      (migrated hash (env.basicPass.getD (a.normalize hash).password)
        (a.normalize hash).passwordHash).2 := by
  rw [AuthConfig.effective, AuthConfig.normalize_eq, AuthConfig.override_eq]

/-- A hash that a load makes is of the password of the environment. -/
theorem basicPass_of_hashed
    (hnone : (a.normalize hash).passwordHash = [])
    (hhash : (a.effective hash env).passwordHash ≠ []) :
    env.basicPass = some (env.basicPass.getD (a.normalize hash).password) := by
  cases henv : env.basicPass with
  | none =>
    rw [effective_passwordHash, henv, Option.getD_none,
      migrated_of_settled (AuthConfig.normalize_settled a)] at hhash
    exact absurd hnone hhash
  | some pass => rfl

theorem migrated_of_hash_nil {pass : GoString} (hhash : ∀ pass, hash pass ≠ some [])
    (h : (migrated hash pass []).2 = []) : migrated hash pass [] = (pass, []) := by
  unfold migrated at h ⊢
  grind

/-- Two environments that leave the same after one load and after two override alike. -/
theorem SameOverrides.of_effective (hhash : ∀ pass, hash pass ≠ some [])
    (honce : a.effective hash env₁ = a.effective hash env₂)
    (htwice : (a.effective hash env₁).effective hash env₁ =
      (a.effective hash env₂).effective hash env₂) : SameOverrides hash env₁ env₂ a := by
  have hpassword := congrArg AuthConfig.password honce
  have hpasswordHash := congrArg AuthConfig.passwordHash honce
  have hpass : env₁.basicPass.getD (a.normalize hash).password =
      env₂.basicPass.getD (a.normalize hash).password := by
    by_cases hhashed : (a.normalize hash).passwordHash = []
    · by_cases hnew : (a.effective hash env₁).passwordHash = []
      · -- Neither password is hashed.
        have hnew' := hpasswordHash ▸ hnew
        rw [effective_passwordHash, hhashed] at hnew hnew'
        rw [effective_password, effective_password, hhashed, migrated_of_hash_nil hhash hnew,
          migrated_of_hash_nil hhash hnew'] at hpassword
        exact hpassword
      · -- Both are, and the second load shows them.
        have hnew' := hpasswordHash ▸ hnew
        have htwice' := congrArg AuthConfig.password htwice
        rwa [effective_effective_password (basicPass_of_hashed hhashed hnew) hnew,
          effective_effective_password (basicPass_of_hashed hhashed hnew') hnew'] at htwice'
    · rw [effective_password, effective_password] at hpassword
      unfold migrated at hpassword
      rw [if_neg fun h => hhashed h.2, if_neg fun h => hhashed h.2] at hpassword
      exact hpassword
  have henabled := congrArg AuthConfig.enabled honce
  have hkey := congrArg AuthConfig.apiKey honce
  have huser := congrArg AuthConfig.username honce
  simp only [AuthConfig.effective, AuthConfig.normalize_eq, AuthConfig.override_eq]
    at henabled hkey huser
  exact ⟨henabled, hkey, huser, hpass⟩

end

/-! ## Salts -/

section

variable {σ : Type} {hash : σ → GoString → Option GoString} {env₁ env₂ : Env} {a : AuthConfig}

theorem Bcrypt.normalize_password (hbcrypt : Bcrypt hash) (salt salt' : σ) (a : AuthConfig) :
    (a.normalize (hash salt)).password = (a.normalize (hash salt')).password := by
  rw [AuthConfig.normalize_eq, AuthConfig.normalize_eq]
  simp only [migrated]
  split
  · cases hsalt : hash salt a.password with
    | none => rw [hbcrypt.refuses salt salt' a.password hsalt]
    | some h =>
      cases hsalt' : hash salt' a.password with
      | none =>
        rw [hbcrypt.refuses salt' salt a.password hsalt'] at hsalt
        cases hsalt
      | some h' => rfl
  · rfl

theorem SameOverrides.resalt (hbcrypt : Bcrypt hash) {salt : σ} (salt' : σ)
    (h : SameOverrides (hash salt) env₁ env₂ a) : SameOverrides (hash salt') env₁ env₂ a := by
  refine ⟨h.enabled, h.apiKey, h.username, ?_⟩
  rw [hbcrypt.normalize_password salt' salt]
  exact h.password

end

end GloryHole.Config
