import AutoPR.Api.Outsiders
import AutoPR.Clients.Authorised
import AutoPR.Webhook.QuotaBound

/-! A public instance: look, don't touch. The settings are refused unless the posture holds, and with
it nothing that anyone sends approves or rejects through the API, works for a repository off the
list, spends beyond the quotas or writes to GitHub. -/
namespace AutoPR.Api
open Python UnitOfWork Transition Jobs Tenancy Commands Webhook Ratelimit Relational Noninterference

/-- Every job is for a repository on the list. -/
def Listed (u : Unicode) (allowedRepos : String) (jobs : JobTable) : Prop :=
  ∀ j row, jobs j = some row → u.lower (strip row.repo) ∈ allowedRepoSet u allowedRepos

section
variable {u : Unicode} {allowedRepos : String} {s t : Jobs.State}

theorem Listed.of_rows {jobs jobs' : JobTable} (hs : Listed u allowedRepos jobs)
    (h : ∀ j row, jobs' j = some row → (∃ old, jobs j = some old ∧ row.repo = old.repo) ∨
      u.lower (strip row.repo) ∈ allowedRepoSet u allowedRepos) : Listed u allowedRepos jobs' := by
  intro j row hrow
  obtain ⟨old, hold, hrepo⟩ | hlisted := h j row hrow
  · rw [hrepo]
    exact hs j old hold
  · exact hlisted

theorem Listed.write {jobs : JobTable} (hs : Listed u allowedRepos jobs) {j : JobId} {row : PRJob}
    (hrow : u.lower (strip row.repo) ∈ allowedRepoSet u allowedRepos) :
    Listed u allowedRepos (jobs.write j (some row)) := by
  intro i new hnew
  by_cases hi : i = j
  · subst hi
    rw [Table.write_self] at hnew
    cases hnew
    exact hrow
  · rw [Table.write_of_ne _ _ hi] at hnew
    exact hs i new hnew

theorem claimAndPublish_listed (correlationId : String) (outcome : XaddOutcome) (j : JobId)
    (hs : Listed u allowedRepos s.jobs) :
    Listed u allowedRepos (claimAndPublish s j correlationId outcome).1.jobs := by
  unfold claimAndPublish
  cases hclaim : (s.jobs j).bind (·.claimPublish s.now) with
  | none => exact hs
  | some job =>
    obtain ⟨old, hold, hjob⟩ := Option.bind_eq_some_iff.mp hclaim
    have hlisted : u.lower (strip job.repo) ∈ allowedRepoSet u allowedRepos := by
      rw [(PRJob.claimPublish_eq_some.mp hjob).2]
      exact hs j old hold
    have hclaimed : Listed u allowedRepos (s.jobs.write j (some job)) := hs.write hlisted
    have hflushed : ∀ copy new : PRJob,
        u.lower (strip (job.flush s.now copy new).repo) ∈ allowedRepoSet u allowedRepos := by
      intro copy new
      rw [PRJob.flush_frame]
      exact hlisted
    cases outcome with
    | ok => exact hclaimed.write (hflushed _ _)
    | raised landed exc => cases landed <;> exact hclaimed.write (hflushed _ _)

theorem publishInserted_listed {key : String} {created : Bool} (correlationId : String)
    (outcome : XaddOutcome) (hs : Listed u allowedRepos s.jobs) :
    Listed u allowedRepos (publishInserted s key created correlationId outcome).1.jobs := by
  unfold publishInserted
  split
  · exact hs
  · split
    · exact claimAndPublish_listed correlationId outcome _ hs
    · exact hs

theorem ingest_listed {cfg : Jobs.Settings} {key : String} {payload : PRPayload}
    (correlationId : String) (outcome : XaddOutcome) (hs : Listed u allowedRepos s.jobs)
    (hrepo : u.lower (strip payload.repo) ∈ allowedRepoSet u allowedRepos) :
    Listed u allowedRepos (ingest cfg s key payload correlationId outcome).1.jobs := by
  unfold ingest
  split
  · exact publishInserted_listed correlationId outcome hs
  · exact publishInserted_listed correlationId outcome (hs.write hrepo)

theorem step_listed {cfg : Jobs.Settings} {a : Jobs.Action} (h : Jobs.step cfg s a = some t)
    (ha : ∀ p, a ≠ .publisher p .insert) (hs : Listed u allowedRepos s.jobs) :
    Listed u allowedRepos t.jobs := by
  refine hs.of_rows fun j row hrow => .inl ?_
  obtain hsame | ⟨-, hgrown, -⟩ | ⟨old, new, hold, hnew, hwrite⟩ := step_jobs h j
  · exact ⟨row, hsame ▸ hrow, rfl⟩
  · rw [step_nextId_eq h ha] at hgrown
    exact absurd hgrown (Nat.ne_of_lt (Nat.lt_succ_self _))
  · cases hnew.symm.trans hrow
    exact ⟨old, hold, hwrite.repo⟩

end

section
variable {plat : Platform} {cfg : WebhookSettings}

def KeepsList (cfg : WebhookSettings) (s t : Server) : Prop :=
  Listed cfg.unicode cfg.allowedRepos s.jobs.jobs → Listed cfg.unicode cfg.allowedRepos t.jobs.jobs

theorem KeepsList.refl (s : Server) : KeepsList cfg s s := id

theorem KeepsList.trans (s t v : Server) (h : KeepsList cfg s t) (h' : KeepsList cfg t v) :
    KeepsList cfg s v := h' ∘ h

theorem KeepsList.of_jobs {s t : Server} (h : t.jobs = s.jobs) : KeepsList cfg s t := by
  unfold KeepsList
  rw [h]
  exact id

theorem ingestCandidate_list {req : Webhook.Request} {c : Candidate} (hallowed : Allowed cfg c.repo)
    (hlist : allowedRepoSet cfg.unicode cfg.allowedRepos ≠ []) :
    Keeps (KeepsList cfg) (ingestCandidate plat cfg req c) := by
  obtain hempty | ⟨name, hname, hmem⟩ := hallowed
  · exact absurd hempty hlist
  intro s
  unfold final ingestCandidate
  cases hbind : plat.bindText c.repo with
  | none => exact KeepsList.refl s
  | some repo =>
    rw [hname] at hbind
    obtain rfl := plat.bindText_str name repo hbind
    have hingest : KeepsList cfg s { s with jobs := (ingest cfg.jobs s.jobs
        (c.dedupKey cfg.unicode cfg.jobs.sha256) (c.payload repo) req.correlationId req.xadd).1 } :=
      fun hs => ingest_listed req.correlationId req.xadd hs hmem
    dsimp only
    cases ingestReply (ingest cfg.jobs s.jobs (c.dedupKey cfg.unicode cfg.jobs.sha256)
      (c.payload repo) req.correlationId req.xadd).2 with
    | ok reply => exact hingest
    | error e => exact hingest

theorem jobEvent_list {req : Webhook.Request} {payload : PyVal}
    (hlist : allowedRepoSet cfg.unicode cfg.allowedRepos ≠ []) :
    Keeps (KeepsList cfg) (jobEvent plat cfg req payload) := by
  unfold jobEvent
  refine Keeps.bind KeepsList.trans (fun s => .of_jobs (orEscape_frame _ s).jobs) fun found => ?_
  cases found with
  | none => exact Keeps.pure KeepsList.refl _
  | some c =>
    refine Keeps.bind_of KeepsList.trans (fun s => .of_jobs (admission_frame s).jobs) ?_
    intro answer s t hadmission
    cases answer with
    | some reply => exact Keeps.pure KeepsList.refl _
    | none => exact ingestCandidate_list (admission_cleared hadmission).1.allowed hlist

theorem dispatch_list {w : Nat → Moment} {ledger : Routing.Ledger}
    {createdAt : Routing.DecisionId → Time} {req : Webhook.Request} {payload : PyVal}
    (hlist : allowedRepoSet cfg.unicode cfg.allowedRepos ≠ []) :
    Keeps (KeepsList cfg) (dispatch plat cfg w ledger createdAt req payload) := by
  unfold dispatch
  refine Keeps.ite (fun s => .of_jobs (installationEvent_frame s).jobs) ?_
  refine Keeps.ite (fun s => .of_jobs (installationRepositoriesEvent_frame s).jobs) ?_
  refine Keeps.ite (fun s => ?_) (jobEvent_list hlist)
  exact .of_jobs (@issueComment_frame cfg w ledger createdAt payload s s).1

theorem webhook_list {w : Nat → Moment} {ledger : Routing.Ledger}
    {createdAt : Routing.DecisionId → Time} {req : Webhook.Request}
    (hlist : allowedRepoSet cfg.unicode cfg.allowedRepos ≠ []) :
    Keeps (KeepsList cfg) (webhook plat cfg w ledger createdAt req) := by
  intro s
  unfold webhook
  cases hauth : authenticate plat cfg req with
  | error e => exact KeepsList.refl s
  | ok found =>
    cases found with
    | error reply => exact KeepsList.refl s
    | ok payload => exact dispatch_list hlist s

end

def Visit.isOps {K : Type*} (v : Visit K) : Bool :=
  match v.ask with
  | .approve _ _ | .reject _ => true
  | _ => false

section
variable {K : Type*} [Field K] [LinearOrder K] [FloorRing K] {plat : Platform} {cfg : SiteSettings}

/-- Two sites that differ in the windows of the callers of the ops endpoints, and in what they have
counted. -/
structure SameButOps (s t : Site K) : Prop where
  server : s.server = t.server
  webhooks : s.webhookBuckets = t.webhookBuckets

theorem mutate_frame {act : Handling Routing.Outcome} (outcome : Routing.Outcome)
    (hact : ∀ desk, act desk = .ok outcome desk) (s : Site K) (v : Visit K) :
    SameButOps (mutate cfg act s v).2 s := by
  have hanswer : opsAnswer (K := K) act s.server = (.decision outcome, s.server) := by
    unfold opsAnswer
    rw [hact]
    rfl
  unfold mutate
  cases requireApiToken cfg v.authorization with
  | some refusal => exact ⟨rfl, rfl⟩
  | none =>
    dsimp only
    cases (rateLimit cfg cfg.rateLimitMutationsPerMin s.mutationBuckets v).1 with
    | some refusal => exact ⟨rfl, rfl⟩
    | none =>
      rw [hanswer]
      exact ⟨rfl, rfl⟩

theorem respond_ops (plat : Platform) (hpublic : cfg.publicMode = true) {s : Site K} {v : Visit K}
    (hops : v.isOps = true) : SameButOps (respond plat cfg s v).2 s := by
  unfold Visit.isOps at hops
  unfold respond
  cases hask : v.ask with
  | approve d post =>
    refine mutate_frame .readOnly (fun desk => ?_) s v
    unfold approveReview
    rw [hpublic]
    rfl
  | reject d =>
    refine mutate_frame .readOnly (fun desk => ?_) s v
    unfold rejectReview
    rw [hpublic]
    rfl
  | _ =>
    rw [hask] at hops
    cases hops

theorem respond_same (plat : Platform) {s t : Site K} (h : SameButOps s t) {v : Visit K}
    (hops : v.isOps = false) :
    (respond plat cfg s v).1.uncounted = (respond plat cfg t v).1.uncounted ∧
      SameButOps (respond plat cfg s v).2 (respond plat cfg t v).2 := by
  obtain ⟨hserver, hwebhooks⟩ := h
  unfold Visit.isOps at hops
  unfold respond
  cases hask : v.ask with
  | webhook req around =>
    dsimp only
    rw [hwebhooks, hserver]
    cases (rateLimit cfg cfg.rateLimitWebhookPerMin t.webhookBuckets v).1 with
    | some refusal => exact ⟨rfl, ⟨rfl, rfl⟩⟩
    | none => exact ⟨rfl, ⟨rfl, rfl⟩⟩
  | approve d post | reject d =>
    rw [hask] at hops
    cases hops
  | read endpoint =>
    dsimp only
    rw [hserver]
    exact ⟨rfl, ⟨hserver, hwebhooks⟩⟩
  | metrics =>
    dsimp only
    refine ⟨?_, ⟨hserver, hwebhooks⟩⟩
    cases cfg.metricsEnabled with
    | false => rfl
    | true => exact congrArg (Answer.metrics · []) hserver
  | healthz | readyz database redis => exact ⟨rfl, ⟨hserver, hwebhooks⟩⟩

theorem ops_unwinding (hpublic : cfg.publicMode = true) :
    Unwinding (uncounted (K := K) plat cfg) (Happening.keeps (!·.isOps)) (fun _ => True)
      SameButOps where
  dropped s t happening _ hdrop h := by
    cases happening with
    | meanwhile f => cases hdrop
    | visit v =>
      have hframe := respond_ops plat (s := s) hpublic (by simpa [Happening.keeps] using hdrop)
      exact ⟨hframe.server.trans h.server, hframe.webhooks.trans h.webhooks⟩
  kept s t happening _ hkeep h := by
    cases happening with
    | meanwhile f => exact ⟨rfl, ⟨congrArg f h.server, h.webhooks⟩⟩
    | visit v =>
      obtain ⟨hanswer, hserver, hwebhooks⟩ :=
        respond_same plat h (by simpa [Happening.keeps] using hkeep)
      exact ⟨congrArg some hanswer, ⟨hserver, hwebhooks⟩⟩

omit [Field K] [LinearOrder K] [FloorRing K] in
theorem opsAnswer_jobs (act : Handling Routing.Outcome) (s : Server) :
    (opsAnswer (K := K) act s).2.jobs = s.jobs := by
  unfold opsAnswer
  cases act s.desk <;> rfl

theorem mutate_jobs (act : Handling Routing.Outcome) (s : Site K) (v : Visit K) :
    (mutate cfg act s v).2.server.jobs = s.server.jobs := by
  unfold mutate
  cases requireApiToken cfg v.authorization with
  | some refusal => rfl
  | none =>
    dsimp only
    cases (rateLimit cfg cfg.rateLimitMutationsPerMin s.mutationBuckets v).1 with
    | some refusal => rfl
    | none => exact opsAnswer_jobs act s.server

theorem respond_list (hlist : allowedRepoSet cfg.unicode cfg.allowedRepos ≠ []) (s : Site K)
    (v : Visit K) : KeepsList cfg.toWebhookSettings s.server (respond plat cfg s v).2.server := by
  unfold respond
  cases v.ask with
  | webhook req around =>
    dsimp only
    cases (rateLimit cfg cfg.rateLimitWebhookPerMin s.webhookBuckets v).1 with
    | some refusal => exact KeepsList.refl _
    | none =>
      have hkeeps := @webhook_list plat cfg.toWebhookSettings around.moments around.ledger
        around.createdAt { req with limited := false } hlist s.server
      unfold final at hkeeps
      dsimp only [webhookAnswer]
      cases hrun : webhook plat cfg.toWebhookSettings around.moments around.ledger around.createdAt
          { req with limited := false } s.server with
      | ok reply t =>
        rw [hrun] at hkeeps
        exact hkeeps
      | error e t =>
        rw [hrun] at hkeeps
        exact hkeeps
  | approve d post => exact .of_jobs (mutate_jobs _ s v)
  | reject d => exact .of_jobs (mutate_jobs _ s v)
  | read endpoint | metrics | healthz | readyz database redis => exact KeepsList.refl _

/-- Beside the requests run steps of the pipeline, INSERTs apart. -/
def BesidePipeline (cfg : SiteSettings) (events : List (Happening K)) : Prop :=
  ∀ f, .meanwhile f ∈ events → ∃ a : Jobs.Action, (∀ p, a ≠ .publisher p .insert) ∧
    ∀ s : Server, f s = { s with jobs := (Jobs.step cfg.jobs s.jobs a).getD s.jobs }

theorem live_list (hlist : allowedRepoSet cfg.unicode cfg.allowedRepos ≠ [])
    {events : List (Happening K)} (hbeside : BesidePipeline cfg events) {s : Site K}
    (hs : Listed cfg.unicode cfg.allowedRepos s.server.jobs.jobs) :
    Listed cfg.unicode cfg.allowedRepos (after (live plat cfg) s events).server.jobs.jobs := by
  induction events generalizing s with
  | nil => exact hs
  | cons happening rest ih =>
    rw [after_cons]
    refine ih (fun f hf => hbeside f (List.mem_cons_of_mem _ hf)) ?_
    cases happening with
    | visit v => exact respond_list hlist s v hs
    | meanwhile f =>
      obtain ⟨a, ha, hf⟩ := hbeside f List.mem_cons_self
      dsimp only [live]
      rw [hf]
      cases hstep : Jobs.step cfg.jobs s.server.jobs a with
      | none => exact hs
      | some t => exact step_listed hstep ha hs

end

theorem silent_deployment {cfg : Clients.AppSettings} (hwrites : cfg.writesNothing = true)
    {createdAt : Routing.DecisionId → Time} {home : Routing.Actor → Process}
    {ledger : Routing.Ledger} {tenants : Installations} {s : Clients.Deployment}
    (h : (Clients.deployments (cfg.setup createdAt home) ledger tenants).Reachable anyStep s)
    (post : Clients.Post) : .posted post ∉ s.trace := by
  intro hmem
  obtain ⟨earlier, -, hlive, -⟩ := (Clients.Reachable.sound h).posts.of_mem hmem
  change cfg.writesNothing = false at hlive
  cases hwrites.symm.trans hlive

/-- Settings with the flag of a public instance have been accepted. Then approvals and rejections
through the API may be left out of any run, by whomever they come, and leave no trace but in the
request counters of `/metrics`; every job is for a repository on the list, if it was so before; each
window holds no more jobs than its quota, which is there, and the handlers at work allow; and
nothing is written to GitHub. -/
theorem public_instance_safe {K : Type*} [Field K] [LinearOrder K] [FloorRing K]
    {env : Environment} {cfg : SiteSettings} (hboot : enforceSecureConfig env cfg = .ok ())
    (hpublic : cfg.publicMode = true) :
    (∀ (plat : Platform) (events : List (Happening K)) (s : Site K),
      (answers (uncounted plat cfg) s events).filter (fun a => a.1.keeps (!·.isOps)) =
        answers (uncounted plat cfg) s (events.filter (Happening.keeps (!·.isOps))) ∧
      (after (live plat cfg) s events).server =
        (after (live plat cfg) s (events.filter (Happening.keeps (!·.isOps)))).server) ∧
    (∀ (plat : Platform) (events : List (Happening K)) (s : Site K), BesidePipeline cfg events →
      Listed cfg.unicode cfg.allowedRepos s.server.jobs.jobs →
      Listed cfg.unicode cfg.allowedRepos (after (live plat cfg) s events).server.jobs.jobs) ∧
    (∀ (c : Nat) (s : Webhook.State),
      (webhooks cfg.jobs cfg.quotas).Reachable (Capped cfg.jobs cfg.quotas c) s →
      ∀ scope : Scope, (∀ i, scope = .installation i → cfg.multiTenantEnabled = true) →
      ∃ limit : Nat, cfg.quotas.limit scope.quota = limit ∧ 0 < limit ∧
        ∀ x, (createdWithin scope x s.jobs.jobs).encard ≤ (limit - 1 + c : Nat)) ∧
    ∀ (createdAt : Routing.DecisionId → Time) (home : Routing.Actor → Process)
      (ledger : Routing.Ledger) (tenants : Installations) (s : Clients.Deployment),
      (Clients.deployments (cfg.toAppSettings.setup createdAt home) ledger tenants).Reachable
        anyStep s →
      ∀ post, .posted post ∉ s.trace := by
  have hposture := (boots_iff.mp hboot).1 hpublic
  refine ⟨?_, ?_, ?_, ?_⟩
  · intro plat events s
    obtain ⟨hanswers, hafter⟩ := (ops_unwinding hpublic).purge (fun _ _ => trivial)
      (⟨rfl, rfl⟩ : SameButOps s s)
    exact ⟨hanswers, hafter.server⟩
  · intro plat events s hbeside hs
    exact live_list hposture.allowlist hbeside hs
  · intro c s hreach scope htenant
    have hpos : 0 < cfg.quotas.limit scope.quota := by
      cases scope with
      | repo name => exact hposture.repoQuota
      | installation i => exact hposture.installationQuota (htenant i rfl)
      | whole => exact hposture.totalQuota
    have hlimit : cfg.quotas.limit scope.quota = (cfg.quotas.limit scope.quota).toNat := by omega
    refine ⟨_, hlimit, by omega, fun x => ?_⟩
    exact le_self_add.trans (Reachable.bounded hreach scope _ hlimit (by omega) x)
  · intro createdAt home ledger tenants s hreach
    apply silent_deployment _ hreach
    show (_ || cfg.githubDryRun) = true
    rw [hposture.dryRun, Bool.or_true]

/-- A demo of one repository. -/
def SiteSettings.demo : SiteSettings :=
  { SiteSettings.guarded with
    publicMode := true
    allowedRepos := "acme/api"
    quotas := { jobsPerRepoPerHour := 5, jobsTotalPerDay := 20 } }

/-- Whoever tries to approve on the demo might as well not have. -/
theorem public_instance_safe_demo :
    (after (live .keyed .demo) Site.opened [.visit operatorReject]).server = Site.opened.server :=
  ((@public_instance_safe ℚ _ _ _ {} .demo (by decide) rfl).1 .keyed [.visit operatorReject]
    .opened).2

end AutoPR.Api
