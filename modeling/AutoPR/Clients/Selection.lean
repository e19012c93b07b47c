import AutoPR.Tenancy.Credentials
import AutoPR.Webhook.Admission

/-! Which client writes to GitHub and which one reads, chosen from the settings alone. -/
namespace AutoPR.Clients
open Python Routing Tenancy Webhook

structure AppSettings extends WebhookSettings where
  /-- The operator's personal access token. -/
  githubToken : String := ""

inductive Credential where
  | pat (token : String)
  | installation (token : InstallationToken)
deriving DecidableEq

inductive Writer where
  | fake
  /-- `TenantGitHubClient`. -/
  | tenant
  | http (token : String)
deriving DecidableEq

def tokenWriter (cfg : AppSettings) : Writer :=
  if cfg.githubToken ≠ "" && !cfg.githubDryRun then .http cfg.githubToken else .fake

def getGithubClient (cfg : AppSettings) : Except AuthError Writer :=
  if cfg.handoffMode then .ok .fake
  else if cfg.multiTenantEnabled && !cfg.githubDryRun then
    match getAppAuth cfg.toWebhookSettings with
    | .error e => .error e
    | .ok true => .ok .tenant
    | .ok false => .ok (tokenWriter cfg)
  else .ok (tokenWriter cfg)

section
variable {cfg : AppSettings}

theorem getAppAuth_multiTenant {configured : Bool}
    (h : getAppAuth cfg.toWebhookSettings = .ok configured) :
    configured = cfg.multiTenantEnabled := by
  unfold getAppAuth at h
  split at h
  · rename_i henabled
    cases hkey : normalisePrivateKey cfg.githubAppPrivateKey with
    | error e =>
      rw [hkey] at h
      cases h
    | ok key =>
      rw [hkey] at h
      cases h
      exact henabled.symm
  · rename_i henabled
    cases h
    exact (Bool.eq_false_iff.mpr henabled).symm

theorem writes_of_writer {writer : Writer} (h : getGithubClient cfg = .ok writer)
    (hwriter : writer ≠ .fake) : cfg.writesNothing = false := by
  unfold getGithubClient at h
  unfold ClientSettings.writesNothing
  have htoken : .ok (tokenWriter cfg) = (.ok writer : Except AuthError Writer) →
      cfg.githubDryRun = false := by
    intro heq
    cases heq
    unfold tokenWriter at hwriter
    split at hwriter
    · rename_i hlive
      simp only [Bool.and_eq_true, Bool.not_eq_true'] at hlive
      exact hlive.2
    · exact absurd rfl hwriter
  split at h
  · cases h
    exact absurd rfl hwriter
  · rename_i hhandoff
    rw [Bool.eq_false_iff.mpr hhandoff, Bool.false_or]
    split at h
    · rename_i henabled
      simp only [Bool.and_eq_true, Bool.not_eq_true'] at henabled
      exact henabled.2
    · exact htoken h

theorem tenant_of_multiTenant {writer : Writer} (h : getGithubClient cfg = .ok writer)
    (henabled : cfg.multiTenantEnabled = true) : writer = .fake ∨ writer = .tenant := by
  unfold getGithubClient at h
  split at h
  · cases h
    exact .inl rfl
  · rw [henabled, Bool.true_and] at h
    split at h
    · cases happ : getAppAuth cfg.toWebhookSettings with
      | error e =>
        rw [happ] at h
        cases h
      | ok configured =>
        have hconfigured := (getAppAuth_multiTenant happ).trans henabled
        rw [happ, hconfigured] at h
        cases h
        exact .inr rfl
    · rename_i hdry
      cases h
      left
      unfold tokenWriter
      rw [if_neg]
      simp only [Bool.and_eq_true, not_and]
      intro _
      exact hdry

theorem http_token {token : String} (h : getGithubClient cfg = .ok (.http token)) :
    token = cfg.githubToken ∧ token ≠ "" := by
  have hread : tokenWriter cfg = .http token → token = cfg.githubToken ∧ token ≠ "" := by
    intro hwriter
    unfold tokenWriter at hwriter
    split at hwriter
    · rename_i hlive
      cases hwriter
      simp only [Bool.and_eq_true, decide_eq_true_eq] at hlive
      exact ⟨rfl, hlive.1⟩
    · cases hwriter
  unfold getGithubClient at h
  split at h
  · cases h
  · split at h
    · split at h
      · cases h
      · cases h
      · exact hread (Except.ok.inj h)
    · exact hread (Except.ok.inj h)

theorem tokenWriter_ne_tenant : tokenWriter cfg ≠ .tenant := by
  unfold tokenWriter
  split <;> simp

theorem tenant_configured (h : getGithubClient cfg = .ok .tenant) :
    getAppAuth cfg.toWebhookSettings = .ok true := by
  unfold getGithubClient at h
  split at h
  · cases h
  · split at h
    · split at h
      · cases h
      · assumption
      · exact absurd (Except.ok.inj h) tokenWriter_ne_tenant
    · exact absurd (Except.ok.inj h) tokenWriter_ne_tenant

end

inductive Reader where
  | fake
  | http (token : String)
deriving DecidableEq

def getGithubReader (cfg : AppSettings) : Reader :=
  if cfg.githubToken ≠ "" then .http cfg.githubToken
  else if cfg.handoffMode then .http ""
  else .fake

end AutoPR.Clients
