import AutoPR.Clients.Selection

/-! The settings that an instance starts with. Whatever would make it insecure without a word is
refused when the settings are read, and the error says which setting is missing. -/
namespace AutoPR.Api
open Python Webhook Clients

structure SiteSettings extends AppSettings where
  /-- The bearer token of the ops API. -/
  apiToken : String := ""
  requireAuthForReads : Bool := false
  rateLimitEnabled : Bool := true
  rateLimitWebhookPerMin : Nat := 120
  rateLimitMutationsPerMin : Nat := 30
  trustedProxies : String := ""
  metricsEnabled : Bool := true
  allowInsecure : Bool := false
  databaseUrl : String := "sqlite+pysqlite:///./autopr.db"

def SiteSettings.isSqlite (cfg : SiteSettings) : Bool :=
  "sqlite".toList.isPrefixOf cfg.databaseUrl.toList

def placeholderWebhookSecret : String := "changeme-generate-a-real-secret"

/-- What the probe for a container looks at. -/
structure Environment where
  /-- `AUTOPR_IN_CONTAINER`. -/
  override : Option String := none
  kubernetesServiceHost : Option String := none
  dockerenv : Bool := false
  containerenv : Bool := false

def runningInContainer (u : Unicode) (env : Environment) : Bool :=
  let override := u.lower (strip (env.override.getD ""))
  if override ∈ ["1", "true", "yes", "on"] then true
  else if override ∈ ["0", "false", "no", "off"] then false
  else if env.kubernetesServiceHost.getD "" ≠ "" then true
  else env.dockerenv || env.containerenv

inductive Refusal where
  | noAllowlist
  | liveWrites
  | noInstallationQuota
  | noQuotas
  | placeholderSecret
  | noToken
  | ephemeralDatabase
deriving DecidableEq

def Refusal.message : Refusal → String
  | .noAllowlist =>
      "AUTOPR_PUBLIC_MODE=1 needs AUTOPR_ALLOWED_REPOS. Without an " ++
      "allowlist any repo that can deliver a signed webhook may spend " ++
      "your LLM budget, and on a public instance that includes every " ++
      "stranger who opens a fork PR."
  | .liveWrites =>
      "AUTOPR_PUBLIC_MODE=1 requires AUTOPR_GITHUB_DRY_RUN=true. A public " ++
      "instance that can write to GitHub is a remote code-change service " ++
      "for whoever reaches /approve; leave writes to a private deploy."
  | .noInstallationQuota =>
      "AUTOPR_PUBLIC_MODE=1 with GitHub App credentials needs " ++
      "AUTOPR_QUOTA_JOBS_PER_INSTALLATION_PER_DAY. One tenant must not be " ++
      "able to spend the budget every other tenant shares."
  | .noQuotas =>
      "AUTOPR_PUBLIC_MODE=1 requires both quotas to be positive " ++
      "(AUTOPR_QUOTA_JOBS_PER_REPO_PER_HOUR, AUTOPR_QUOTA_JOBS_TOTAL_PER_DAY). " ++
      "They are the only thing standing between a stranger and your " ++
      "per-token bill."
  | .placeholderSecret =>
      "AUTOPR_WEBHOOK_SECRET is still the placeholder. Generate a real " ++
      "secret (python -c \"import secrets; print(secrets.token_hex(32))\") " ++
      "and set it, or set AUTOPR_ALLOW_INSECURE=1 for local/dev/tests."
  | .noToken =>
      "AUTOPR_API_TOKEN is empty, so /reviews/\x7bid\x7d/approve would accept " ++
      "anonymous approvals and let any caller make this bot write to your " ++
      "repository. Generate one with: python -c \"import secrets; " ++
      "print(secrets.token_hex(32))\" and set it, or set " ++
      "AUTOPR_ALLOW_INSECURE=1 for local/dev/tests."
  | .ephemeralDatabase =>
      "AUTOPR_DATABASE_URL is SQLite inside a container. A container's " ++
      "filesystem is ephemeral, so queued jobs vanish on every restart " ++
      "instead of failing visibly. Point it at Postgres — " ++
      "docker-compose.yml and fly.toml both expect AUTOPR_DATABASE_URL to " ++
      "supply it — or set AUTOPR_ALLOW_INSECURE=1 for a throwaway " ++
      "instance whose jobs do not matter."

def enforcePublicMode (cfg : SiteSettings) : Except Refusal Unit := do
  if allowedRepoSet cfg.unicode cfg.allowedRepos = [] then throw .noAllowlist
  if !cfg.githubDryRun then throw .liveWrites
  if cfg.multiTenantEnabled && cfg.quotas.jobsPerInstallationPerDay ≤ 0 then
    throw .noInstallationQuota
  if cfg.quotas.jobsPerRepoPerHour ≤ 0 || cfg.quotas.jobsTotalPerDay ≤ 0 then throw .noQuotas

def enforceSecureConfig (env : Environment) (cfg : SiteSettings) : Except Refusal Unit := do
  if cfg.publicMode then enforcePublicMode cfg
  if cfg.allowInsecure then return
  if cfg.webhookSecret = placeholderWebhookSecret then throw .placeholderSecret
  if strip cfg.apiToken = "" then throw .noToken
  if cfg.isSqlite && runningInContainer cfg.unicode env then throw .ephemeralDatabase

structure PublicPosture (cfg : SiteSettings) : Prop where
  allowlist : allowedRepoSet cfg.unicode cfg.allowedRepos ≠ []
  dryRun : cfg.githubDryRun = true
  installationQuota : cfg.multiTenantEnabled = true → 0 < cfg.quotas.jobsPerInstallationPerDay
  repoQuota : 0 < cfg.quotas.jobsPerRepoPerHour
  totalQuota : 0 < cfg.quotas.jobsTotalPerDay

structure SecurePosture (env : Environment) (cfg : SiteSettings) : Prop where
  secret : cfg.webhookSecret ≠ placeholderWebhookSecret
  token : strip cfg.apiToken ≠ ""
  durable : cfg.isSqlite = true → runningInContainer cfg.unicode env = false

section
variable {env : Environment} {cfg : SiteSettings}

theorem check_ok {p : Prop} [Decidable p] {e : Refusal} {rest : Except Refusal Unit} :
    (if p then .error e else rest) = .ok () ↔ ¬ p ∧ rest = .ok () := by
  by_cases hp : p <;> simp [hp]

theorem enforcePublicMode_iff : enforcePublicMode cfg = .ok () ↔ PublicPosture cfg := by
  unfold enforcePublicMode
  simp only [bind, Except.bind, pure, Except.pure, throw, throwThe, MonadExceptOf.throw, check_ok]
  constructor
  · rintro ⟨hlist, hdry, htenants, hquotas, -⟩
    simp only [Bool.not_eq_true', Bool.not_eq_false] at hdry
    simp only [Bool.and_eq_true, decide_eq_true_eq, not_and, not_le] at htenants
    simp only [Bool.or_eq_true, decide_eq_true_eq, not_or, not_le] at hquotas
    exact ⟨hlist, hdry, htenants, hquotas.1, hquotas.2⟩
  · rintro ⟨hlist, hdry, htenants, hrepo, htotal⟩
    refine ⟨hlist, by simp [hdry], ?_, ?_, trivial⟩
    · simpa only [Bool.and_eq_true, decide_eq_true_eq, not_and, not_le] using htenants
    · simpa only [Bool.or_eq_true, decide_eq_true_eq, not_or, not_le] using And.intro hrepo htotal

theorem enforceSecureConfig_ok (h : cfg.publicMode = true → enforcePublicMode cfg = .ok ()) :
    enforceSecureConfig env cfg = .ok () ↔ (cfg.allowInsecure = false → SecurePosture env cfg) := by
  have hrest : enforceSecureConfig env cfg =
      if cfg.allowInsecure then .ok ()
      else if cfg.webhookSecret = placeholderWebhookSecret then .error .placeholderSecret
      else if strip cfg.apiToken = "" then .error .noToken
      else if cfg.isSqlite && runningInContainer cfg.unicode env then .error .ephemeralDatabase
      else .ok () := by
    unfold enforceSecureConfig
    cases hmode : cfg.publicMode with
    | true =>
      rw [if_pos rfl, h hmode]
      rfl
    | false => rfl
  rw [hrest]
  cases cfg.allowInsecure with
  | true => simp
  | false =>
    simp only [Bool.false_eq_true, if_false, check_ok, forall_const, Bool.and_eq_true, not_and,
      Bool.not_eq_true]
    constructor
    · rintro ⟨hsecret, htoken, hdurable, -⟩
      exact ⟨hsecret, htoken, hdurable⟩
    · rintro ⟨hsecret, htoken, hdurable⟩
      exact ⟨hsecret, htoken, hdurable, trivial⟩

theorem boots_iff : enforceSecureConfig env cfg = .ok () ↔
    (cfg.publicMode = true → PublicPosture cfg) ∧
      (cfg.allowInsecure = false → SecurePosture env cfg) := by
  by_cases hpublic : cfg.publicMode = true → enforcePublicMode cfg = .ok ()
  · rw [enforceSecureConfig_ok hpublic, iff_and_self]
    exact fun _ hmode => enforcePublicMode_iff.mp (hpublic hmode)
  · obtain ⟨hmode, hrefused⟩ := Classical.not_imp.mp hpublic
    apply iff_of_false
    · unfold enforceSecureConfig
      simp only [hmode, if_true, bind, Except.bind]
      cases hmade : enforcePublicMode cfg with
      | error e => exact fun h => by cases h
      | ok u => exact absurd hmade hrefused
    · exact fun h => hrefused (enforcePublicMode_iff.mpr (h.1 hmode))

end

end AutoPR.Api
