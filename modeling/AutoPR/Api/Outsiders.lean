import AutoPR.Api.Site
import AutoPR.Webhook.Admitted

/-! Callers without a credential. Where the instance has booted as a secure one, their requests may
be left out of any run: nobody else is answered differently and the database is the same. And
where the read endpoints are closed too, what they are answered shows nothing of it. -/
namespace AutoPR.Api
open Python Routing Commands Webhook Ratelimit Relational Noninterference

variable {K : Type*}

/-- The caller shows what its endpoint asks for: a signature under the secret, or the token. -/
def Visit.Credentialed (plat : Platform) (cfg : SiteSettings) (v : Visit K) : Prop :=
  match v.ask with
  | .webhook req _ => req.signature =
      some (signaturePrefix ++ plat.hmacSha256 cfg.webhookSecret req.chunks.flatten)
  | _ => Presents cfg.apiToken v.authorization

def Visit.isWebhook (v : Visit K) : Bool :=
  match v.ask with
  | .webhook _ _ => true
  | _ => false

/-- A request, or what workers and the clock have done to the database in between. -/
inductive Happening (K : Type*) where
  | visit (v : Visit K)
  | meanwhile (f : Server → Server)

/-- Of the requests, those that `p` selects. -/
def Happening.keeps (p : Visit K → Bool) : Happening K → Bool
  | .visit v => p v
  | .meanwhile _ => true

section
variable {plat : Platform} {cfg : SiteSettings}

theorem presents_of_verify {token : String} {header : Option String}
    (h : verifyBearerToken token header = .ok true) : Presents token header := by
  unfold verifyBearerToken at h
  split at h
  · cases h
  · cases header with
    | none => cases h
    | some header =>
      dsimp only at h
      split at h
      · cases h
      · rename_i hstarts
        split at h
        · cases h
        · unfold compareDigest at h
          split at h
          · have hsame : token = providedToken header := of_decide_eq_true (Except.ok.inj h)
            rw [hsame]
            exact presents_providedToken (by simpa using hstarts)
          · cases h

theorem requireApiToken_refuses {authorization : Option String} (htoken : cfg.apiToken ≠ "")
    (h : ¬ Presents cfg.apiToken authorization) :
    ∃ refusal : Answer K, requireApiToken cfg authorization = some refusal := by
  unfold requireApiToken
  rw [if_neg htoken]
  cases hverify : verifyBearerToken cfg.apiToken authorization with
  | error e => exact ⟨_, rfl⟩
  | ok accepted =>
    cases accepted with
    | false => exact ⟨_, rfl⟩
    | true => exact absurd (presents_of_verify hverify) h

theorem webhookAnswer_unsigned {req : Webhook.Request} (around : Surroundings)
    (h : req.signature ≠
      some (signaturePrefix ++ plat.hmacSha256 cfg.webhookSecret req.chunks.flatten)) :
    ∃ answer : Answer K, ∀ s, webhookAnswer plat cfg req around s = (answer, s) := by
  unfold webhookAnswer webhook
  cases hauth : authenticate plat cfg.toWebhookSettings { req with limited := false } with
  | error e => exact ⟨.raised, fun _ => rfl⟩
  | ok found =>
    cases found with
    | error reply => exact ⟨.webhook reply, fun _ => rfl⟩
    | ok payload => exact absurd (authenticate_ok hauth).signature h

section
variable [Field K] [LinearOrder K] [FloorRing K] {perMin : Nat} {buckets buckets' : Buckets K}
  {v : Visit K}

theorem rateLimit_other {key : String}
    (h : cfg.rateLimitEnabled = true → key ≠ v.clientKey cfg) :
    (rateLimit cfg perMin buckets v).2 key = buckets key := by
  unfold rateLimit
  split
  · rename_i hon
    exact allow_other (h hon)
  · rfl

theorem rateLimit_congr (perMin : Nat) (h : cfg.rateLimitEnabled = true →
      buckets (v.clientKey cfg) = buckets' (v.clientKey cfg)) :
    (rateLimit cfg perMin buckets v).1 = (rateLimit cfg perMin buckets' v).1 ∧
      ∀ key, buckets key = buckets' key →
        (rateLimit cfg perMin buckets v).2 key = (rateLimit cfg perMin buckets' v).2 key := by
  unfold rateLimit
  split
  · rename_i hon
    have hsame := @allow_congr _ K _ _ _ _ ⟨perMin, 60⟩ _ _ v.time _ (h hon)
    dsimp only
    refine ⟨by rw [hsame.1], fun key hkey => ?_⟩
    by_cases hown : key = v.clientKey cfg
    · subst hown
      exact hsame.2
    · rw [allow_other hown, allow_other hown]
      exact hkey
  · exact ⟨rfl, fun _ hkey => hkey⟩

end

end

/-- An answer but for what `/metrics` shows of the requests. -/
def Answer.uncounted : Answer K → Answer K
  | .metrics server _ => .metrics server []
  | answer => answer

section
variable [Field K] [LinearOrder K] [FloorRing K] {plat : Platform} {cfg : SiteSettings}

def live (plat : Platform) (cfg : SiteSettings) :
    Machine (Site K) (Happening K) (Option (Answer K)) :=
  fun s happening =>
    match happening with
    | .visit v => ((some (serve plat cfg s v).1), (serve plat cfg s v).2)
    | .meanwhile f => (none, { s with server := f s.server })

/-- The machine, of which nobody looks at what it has counted and timed. -/
def uncounted (plat : Platform) (cfg : SiteSettings) :
    Machine (Site K) (Happening K) (Option (Answer K)) :=
  seenThrough (live plat cfg) (Option.map Answer.uncounted)

/-- Two sites with one database that differ in the windows of some callers of the webhook, and in
what they have counted. -/
structure Agree (dirty : String → Prop) (s t : Site K) : Prop where
  server : s.server = t.server
  mutations : s.mutationBuckets = t.mutationBuckets
  webhooks : ∀ key, ¬ dirty key → s.webhookBuckets key = t.webhookBuckets key

theorem respond_uncredentialed (htoken : cfg.apiToken ≠ "") {s : Site K} {v : Visit K}
    (h : ¬ v.Credentialed plat cfg) :
    (respond plat cfg s v).2.server = s.server ∧
      (respond plat cfg s v).2.mutationBuckets = s.mutationBuckets ∧
      ∀ key, (cfg.rateLimitEnabled = true → v.isWebhook = true → key ≠ v.clientKey cfg) →
        (respond plat cfg s v).2.webhookBuckets key = s.webhookBuckets key := by
  unfold Visit.Credentialed at h
  unfold respond
  cases hask : v.ask with
  | webhook req around =>
    rw [hask] at h
    obtain ⟨answer, hanswer⟩ := webhookAnswer_unsigned around h
    dsimp only
    have hkeys : ∀ key, (cfg.rateLimitEnabled = true → v.isWebhook = true → key ≠ v.clientKey cfg) →
        (rateLimit cfg cfg.rateLimitWebhookPerMin s.webhookBuckets v).2 key =
          s.webhookBuckets key := fun key hkey =>
      rateLimit_other fun hon => hkey hon (by rw [Visit.isWebhook, hask])
    split
    · exact ⟨rfl, rfl, hkeys⟩
    · rw [hanswer]
      exact ⟨rfl, rfl, hkeys⟩
  | approve d post | reject d =>
    rw [hask] at h
    obtain ⟨refusal, hrefusal⟩ := requireApiToken_refuses htoken h
    dsimp only [mutate]
    rw [hrefusal]
    exact ⟨rfl, rfl, fun _ _ => rfl⟩
  | read endpoint | metrics | healthz | readyz database redis => exact ⟨rfl, rfl, fun _ _ => rfl⟩

theorem mutate_agree {dirty : String → Prop} {s t : Site K} (h : Agree dirty s t)
    (act : Handling Outcome) (v : Visit K) :
    (mutate cfg act s v).1 = (mutate cfg act t v).1 ∧
      Agree dirty (mutate cfg act s v).2 (mutate cfg act t v).2 := by
  unfold mutate
  cases requireApiToken cfg v.authorization with
  | some refusal => exact ⟨rfl, h⟩
  | none =>
    dsimp only
    rw [h.mutations, h.server]
    cases (rateLimit cfg cfg.rateLimitMutationsPerMin t.mutationBuckets v).1 with
    | some refusal => exact ⟨rfl, ⟨rfl, rfl, h.webhooks⟩⟩
    | none => exact ⟨rfl, ⟨rfl, rfl, h.webhooks⟩⟩

theorem respond_agree (plat : Platform) {dirty : String → Prop} {s t : Site K}
    (h : Agree dirty s t) {v : Visit K}
    (hclean : cfg.rateLimitEnabled = true → v.isWebhook = true → ¬ dirty (v.clientKey cfg)) :
    (respond plat cfg s v).1.uncounted = (respond plat cfg t v).1.uncounted ∧
      Agree dirty (respond plat cfg s v).2 (respond plat cfg t v).2 := by
  unfold respond
  cases hask : v.ask with
  | webhook req around =>
    dsimp only
    have hsame : cfg.rateLimitEnabled = true →
        s.webhookBuckets (v.clientKey cfg) = t.webhookBuckets (v.clientKey cfg) := fun hon =>
      h.webhooks _ (hclean hon (by rw [Visit.isWebhook, hask]))
    obtain ⟨hanswer, hbuckets⟩ := rateLimit_congr cfg.rateLimitWebhookPerMin hsame
    rw [hanswer, h.server]
    cases (rateLimit cfg cfg.rateLimitWebhookPerMin t.webhookBuckets v).1 with
    | some refusal =>
      exact ⟨rfl, ⟨rfl, h.mutations, fun key hkey => hbuckets key (h.webhooks key hkey)⟩⟩
    | none => exact ⟨rfl, ⟨rfl, h.mutations, fun key hkey => hbuckets key (h.webhooks key hkey)⟩⟩
  | approve d post | reject d =>
    obtain ⟨hanswer, hnext⟩ := mutate_agree h _ v
    exact ⟨congrArg Answer.uncounted hanswer, hnext⟩
  | read endpoint =>
    dsimp only
    rw [h.server]
    exact ⟨rfl, h⟩
  | metrics =>
    dsimp only
    refine ⟨?_, h⟩
    cases cfg.metricsEnabled with
    | false => rfl
    | true => exact congrArg (Answer.metrics · []) h.server
  | healthz | readyz database redis => exact ⟨rfl, h⟩

def dirtyKeys (cfg : SiteSettings) (keep : Visit K → Bool) (events : List (Happening K))
    (key : String) : Prop :=
  cfg.rateLimitEnabled = true ∧
    ∃ v, .visit v ∈ events ∧ keep v = false ∧ v.isWebhook = true ∧ v.clientKey cfg = key

theorem live_unwinding (htoken : cfg.apiToken ≠ "") {keep : Visit K → Bool}
    {events : List (Happening K)}
    (hout : ∀ v, .visit v ∈ events → keep v = false → ¬ v.Credentialed plat cfg)
    (hapart : cfg.rateLimitEnabled = true → ∀ v v', .visit v ∈ events → .visit v' ∈ events →
      keep v = false → keep v' = true → v.isWebhook = true → v'.isWebhook = true →
      v.clientKey cfg ≠ v'.clientKey cfg) :
    Unwinding (uncounted plat cfg) (Happening.keeps keep) (· ∈ events)
      (Agree (dirtyKeys cfg keep events)) where
  dropped s t happening hmem hdrop h := by
    cases happening with
    | meanwhile f => cases hdrop
    | visit v =>
      obtain ⟨hserver, hmutations, hwebhooks⟩ :=
        respond_uncredentialed htoken (hout v hmem hdrop) (s := s)
      refine ⟨hserver.trans h.server, hmutations.trans h.mutations, fun key hkey => ?_⟩
      apply (hwebhooks key _).trans (h.webhooks key hkey)
      rintro hon hwebhook rfl
      exact hkey ⟨hon, v, hmem, hdrop, hwebhook, rfl⟩
  kept s t happening hmem hkeep h := by
    cases happening with
    | meanwhile f => exact ⟨rfl, ⟨congrArg f h.server, h.mutations, h.webhooks⟩⟩
    | visit v =>
      have hclean : cfg.rateLimitEnabled = true → v.isWebhook = true →
          ¬ dirtyKeys cfg keep events (v.clientKey cfg) := by
        rintro hon hwebhook ⟨-, v', hmem', hdrop, hwebhook', hkey⟩
        exact hapart hon v' v hmem' hmem hdrop hkeep hwebhook' hwebhook hkey
      obtain ⟨hanswer, hserver, hmutations, hwebhooks⟩ := respond_agree plat h hclean
      exact ⟨congrArg some hanswer, ⟨hserver, hmutations, hwebhooks⟩⟩

def SameWindows (s t : Site K) : Prop :=
  s.webhookBuckets = t.webhookBuckets ∧ s.mutationBuckets = t.mutationBuckets

theorem respond_windows {s t : Site K} (h : SameWindows s t) (v : Visit K) :
    SameWindows (respond plat cfg s v).2 (respond plat cfg t v).2 := by
  obtain ⟨hwebhooks, hmutations⟩ := h
  have hmutate : ∀ act act' : Handling Outcome,
      SameWindows (mutate cfg act s v).2 (mutate cfg act' t v).2 := by
    intro act act'
    unfold mutate
    cases requireApiToken cfg v.authorization with
    | some refusal => exact ⟨hwebhooks, hmutations⟩
    | none =>
      dsimp only
      rw [hmutations]
      cases (rateLimit cfg cfg.rateLimitMutationsPerMin t.mutationBuckets v).1 <;>
        exact ⟨hwebhooks, rfl⟩
  unfold respond
  cases v.ask with
  | webhook req around =>
    dsimp only
    rw [hwebhooks]
    cases (rateLimit cfg cfg.rateLimitWebhookPerMin t.webhookBuckets v).1 <;>
      exact ⟨rfl, hmutations⟩
  | approve d post => exact hmutate _ _
  | reject d => exact hmutate _ _
  | read endpoint | metrics | healthz | readyz database redis => exact ⟨hwebhooks, hmutations⟩

theorem respond_blind (htoken : cfg.apiToken ≠ "") (hreads : cfg.requireAuthForReads = true)
    (hmetrics : cfg.metricsEnabled = false) {s t : Site K} (h : SameWindows s t) {v : Visit K}
    (hout : ¬ v.Credentialed plat cfg) :
    (respond plat cfg s v).1 = (respond plat cfg t v).1 := by
  obtain ⟨hwebhooks, hmutations⟩ := h
  unfold Visit.Credentialed at hout
  unfold respond
  cases hask : v.ask with
  | webhook req around =>
    rw [hask] at hout
    obtain ⟨answer, hanswer⟩ := webhookAnswer_unsigned around hout
    dsimp only
    rw [hwebhooks, hanswer, hanswer]
    cases (rateLimit cfg cfg.rateLimitWebhookPerMin t.webhookBuckets v).1 <;> rfl
  | approve d post | reject d =>
    rw [hask] at hout
    obtain ⟨refusal, hrefusal⟩ := requireApiToken_refuses htoken hout
    dsimp only [mutate]
    rw [hrefusal]
  | read endpoint =>
    rw [hask] at hout
    obtain ⟨refusal, hrefusal⟩ := requireApiToken_refuses (K := K) htoken hout
    simp only [requireApiTokenForReads, hreads, if_true, hrefusal, Option.getD_some]
  | metrics => simp [hmetrics]
  | healthz | readyz database redis => rfl

theorem live_lockstep (htoken : cfg.apiToken ≠ "") (hreads : cfg.requireAuthForReads = true)
    (hmetrics : cfg.metricsEnabled = false) :
    Lockstep (live (K := K) plat cfg)
      (fun happening => ∀ v, happening = .visit v → ¬ v.Credentialed plat cfg) SameWindows where
  step s t happening h := by
    cases happening with
    | visit v => exact respond_windows h v
    | meanwhile f => exact h
  same s t happening hseen h := by
    cases happening with
    | visit v => exact congrArg some (respond_blind htoken hreads hmetrics h (hseen v rfl))
    | meanwhile f => rfl

end

/-- An instance has started without the escape hatch. In every run of requests, workers and time, the
requests without a credential may be left out, as long as none of their addresses sends deliveries
that are kept: the others are answered the same, the request counters on a `/metrics` page apart,
and the database ends the same. With the read endpoints and the metrics closed, what the left-out
requests are answered does not depend on the database that the run started from. -/
theorem outsiders_confined [Field K] [LinearOrder K] [FloorRing K] {plat : Platform}
    {env : Environment} {cfg : SiteSettings} (hboot : enforceSecureConfig env cfg = .ok ())
    (hsecure : cfg.allowInsecure = false) (events : List (Happening K)) (keep : Visit K → Bool)
    (hout : ∀ v, .visit v ∈ events → keep v = false → ¬ v.Credentialed plat cfg) :
    ((cfg.rateLimitEnabled = true → ∀ v v', .visit v ∈ events → .visit v' ∈ events →
        keep v = false → keep v' = true → v.isWebhook = true → v'.isWebhook = true →
        v.clientKey cfg ≠ v'.clientKey cfg) →
      ∀ s : Site K,
        (answers (uncounted plat cfg) s events).filter (fun a => a.1.keeps keep) =
          answers (uncounted plat cfg) s (events.filter (Happening.keeps keep)) ∧
        (after (live plat cfg) s events).server =
          (after (live plat cfg) s (events.filter (Happening.keeps keep))).server) ∧
    (cfg.requireAuthForReads = true → cfg.metricsEnabled = false → ∀ s t : Site K,
      s.webhookBuckets = t.webhookBuckets → s.mutationBuckets = t.mutationBuckets →
      (answers (live plat cfg) s events).filter (fun a => !a.1.keeps keep) =
        (answers (live plat cfg) t events).filter fun a => !a.1.keeps keep) := by
  have hposture := (boots_iff.mp hboot).2 hsecure
  have htoken : cfg.apiToken ≠ "" := by
    intro hempty
    apply hposture.token
    rw [hempty]
    rfl
  constructor
  · intro hapart s
    have hunwinding := live_unwinding htoken hout hapart
    obtain ⟨hanswers, hafter⟩ := hunwinding.purge (fun _ hmem => hmem)
      (⟨rfl, rfl, fun _ _ => rfl⟩ : Agree _ s s)
    exact ⟨hanswers, hafter.server⟩
  · intro hreads hmetrics s t hwebhooks hmutations
    apply (live_lockstep htoken hreads hmetrics).answers_filter (fun happening => !happening.keeps keep)
    · rintro happening hmem hdrop v rfl
      exact hout v hmem (by simpa [Happening.keeps] using hdrop)
    · exact ⟨hwebhooks, hmutations⟩

def SiteSettings.guarded : SiteSettings where
  unicode := .ascii
  jobs := { sha256 := id }
  webhookSecret := "s3cret"
  apiToken := "t0ken"
  requireAuthForReads := true
  metricsEnabled := false
  databaseUrl := "postgresql+psycopg://db/autopr"

def anonymousReject : Visit ℚ := { peer := some "203.0.113.9", time := 0, elapsed := 0, ask := .reject 0 }

def forgedDelivery : Visit ℚ where
  peer := some "203.0.113.9"
  time := 1
  elapsed := 0
  ask := .webhook { chunks := [[123, 125]], signature := some "sha256=00" }
    ⟨fun _ => friendly, .empty, fun _ => 0⟩

def operatorReject : Visit ℚ where
  peer := some "198.51.100.7"
  authorization := some "Bearer t0ken"
  time := 2
  elapsed := 0
  ask := .reject 0

def mixedRun : List (Happening ℚ) :=
  [.visit anonymousReject, .visit forgedDelivery, .visit operatorReject]

def Visit.isOperators (v : Visit ℚ) : Bool := v.authorization = some "Bearer t0ken"

def Site.opened : Site ℚ := ⟨.fresh, fun _ => none, fun _ => none, []⟩

/-- The strangers might as well have stayed away. -/
theorem outsiders_confined_mixed :
    (after (live .keyed .guarded) Site.opened mixedRun).server =
      (after (live .keyed .guarded) Site.opened [.visit operatorReject]).server := by
  have hout : ∀ v, .visit v ∈ mixedRun → v.isOperators = false →
      ¬ v.Credentialed .keyed .guarded := by
    intro v hmem hstranger
    simp only [mixedRun, List.mem_cons, Happening.visit.injEq, List.not_mem_nil, or_false] at hmem
    obtain rfl | rfl | rfl := hmem
    · rintro ⟨_, _, hheader, -⟩
      cases hheader
    · show ¬ _ = _
      decide
    · exact absurd hstranger (by decide)
  have hconfined := (@outsiders_confined ℚ _ _ _ _ {} _ (by decide) rfl mixedRun Visit.isOperators hout).1
  refine (hconfined ?_ .opened).2
  intro _ v v' _ hmem _ hkept _ hwebhook
  simp only [mixedRun, List.mem_cons, Happening.visit.injEq, List.not_mem_nil, or_false] at hmem
  obtain rfl | rfl | rfl := hmem
  · cases hkept
  · cases hkept
  · cases hwebhook

end AutoPR.Api
