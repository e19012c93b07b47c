import AutoPR.Api.Boot
import AutoPR.Commands.Ops
import AutoPR.Library.Noninterference
import AutoPR.Ratelimit.ClientIp
import AutoPR.Ratelimit.Window
import AutoPR.Webhook.Verification

/-! The HTTP surface: one request after another, each through its checks. The webhook is limited by
address before its signature is looked at, the ops endpoints only after the bearer token. -/
namespace AutoPR.Api
open Python Routing Tenancy Commands Webhook Ratelimit Relational

inductive Read where
  | pendingReviews
  | installations
  | stats
  | jobs (limit offset : Int) (q status : Option String)
  | reviews (limit offset : Int) (q status : Option String)

structure Surroundings where
  moments : Nat → Moment
  ledger : Ledger
  createdAt : DecisionId → Time

inductive Ask where
  | webhook (req : Webhook.Request) (around : Surroundings)
  /-- `post` is what the client makes of a comment. -/
  | approve (d : DecisionId) (post : Comment → Posting)
  | reject (d : DecisionId)
  | read (endpoint : Read)
  | metrics
  | healthz
  | readyz (database redis : Bool)

structure Visit (K : Type*) where
  /-- The address of the socket's peer, if there is one. -/
  peer : Option String
  forwardedFor : Option String := none
  authorization : Option String := none
  time : K
  /-- How long its handling takes. -/
  elapsed : K
  ask : Ask

/-- What `observability_middleware` records of a request: method and route template, the status of
the answer, and how long it took. -/
structure Observation (K : Type*) where
  route : String × String
  status : Nat
  elapsed : K

inductive Answer (K : Type*) where
  /-- 401, "missing or invalid bearer token". -/
  | unauthorized
  /-- 429, with its `Retry-After`. -/
  | limited (retryAfter : Int)
  | webhook (reply : Webhook.Reply)
  | decision (outcome : Outcome)
  /-- The page that the endpoint makes of the database. -/
  | page (endpoint : Read) (server : Server)
  /-- The gauges of the database, and the requests before, counted and timed. -/
  | metrics (server : Server) (requests : List (Observation K))
  /-- 404, "metrics disabled". -/
  | metricsOff
  | alive
  | ready (ok : Bool)
  /-- 500. -/
  | raised

def Read.path : Read → String
  | .pendingReviews => "/reviews/pending"
  | .installations => "/installations"
  | .stats => "/stats"
  | .jobs .. => "/jobs"
  | .reviews .. => "/reviews"

def Ask.route : Ask → String × String
  | .webhook .. => ("POST", "/webhook")
  | .approve .. => ("POST", "/reviews/\x7bdecision_id\x7d/approve")
  | .reject _ => ("POST", "/reviews/\x7bdecision_id\x7d/reject")
  | .read endpoint => ("GET", endpoint.path)
  | .metrics => ("GET", "/metrics")
  | .healthz => ("GET", "/healthz")
  | .readyz .. => ("GET", "/readyz")

def approveStatus : Outcome → Nat
  | .readOnly => 403
  | .notFound => 404
  | .wasRejected | .inProgress => 409
  | .actionFailed _ => 502
  | _ => 200

def rejectStatus : Outcome → Nat
  | .readOnly => 403
  | .notFound => 404
  | .alreadyExecuted | .inProgress => 409
  | _ => 200

section
variable {K : Type*}

def Answer.status (ask : Ask) : Answer K → Nat
  | .unauthorized => 401
  | .limited _ => 429
  | .webhook reply => reply.code
  | .decision outcome =>
      match ask with
      | .reject _ => rejectStatus outcome
      | _ => approveStatus outcome
  | .page .. | .metrics .. | .alive => 200
  | .metricsOff => 404
  | .ready ok => if ok then 200 else 503
  | .raised => 500

end

def SiteSettings.trustedProxyList (cfg : SiteSettings) : List String :=
  ((cfg.trustedProxies.toList.splitOn ',').map fun p => strip (String.ofList p)).filter (· ≠ "")

section
variable {K : Type*}

def requireApiToken (cfg : SiteSettings) (authorization : Option String) : Option (Answer K) :=
  if cfg.apiToken = "" then none
  else
    match verifyBearerToken cfg.apiToken authorization with
    | .ok true => none
    | .ok false => some .unauthorized
    | .error _ => some .raised

def requireApiTokenForReads (cfg : SiteSettings) (authorization : Option String) :
    Option (Answer K) :=
  if cfg.requireAuthForReads then requireApiToken cfg authorization else none

end

section
variable {K : Type*} [Field K] [LinearOrder K] [FloorRing K]

/-- `_client_ip(request) or "unknown"`. -/
def Visit.clientKey (cfg : SiteSettings) (v : Visit K) : String :=
  let ip := (v.peer.map fun host => resolveClientIp host v.forwardedFor cfg.trustedProxyList).getD ""
  if ip = "" then "unknown" else ip

abbrev Buckets (K : Type*) := String → Option (Window K)

def rateLimit (cfg : SiteSettings) (perMin : Nat) (buckets : Buckets K) (v : Visit K) :
    Option (Answer K) × Buckets K :=
  if cfg.rateLimitEnabled then
    let served := (⟨perMin, 60⟩ : FixedWindowRateLimiter K).allow buckets (v.clientKey cfg) v.time
    (if served.1.allowed then none else some (.limited served.1.retryAfter), served.2)
  else (none, buckets)

end

def rejectReview (cfg : Settings) (d : DecisionId) : Handling Outcome := do
  if cfg.publicMode then return .readOnly
  match ← rejectPending d with
  | (none, _) => return .notFound
  | (some _, .alreadyExecuted) => return .alreadyExecuted
  | (some _, .inProgress) => return .inProgress
  | (some _, _) => return .rejected

section
variable {K : Type*}

def opsAnswer (act : Handling Outcome) (s : Server) : Answer K × Server :=
  match act s.desk with
  | .ok outcome desk => (.decision outcome, s.clear desk)
  | .error _ desk => (.raised, s.clear desk)

def webhookAnswer (plat : Platform) (cfg : SiteSettings) (req : Webhook.Request)
    (around : Surroundings) (s : Server) : Answer K × Server :=
  match webhook plat cfg.toWebhookSettings around.moments around.ledger around.createdAt
      { req with limited := false } s with
  | .ok reply t => (.webhook reply, t)
  | .error _ t => (.raised, t)

end

structure Site (K : Type*) where
  server : Server
  webhookBuckets : Buckets K
  mutationBuckets : Buckets K
  /-- `autopr_http_requests_total` and the latencies, the last request first. -/
  requests : List (Observation K) := []

section
variable {K : Type*} [Field K] [LinearOrder K] [FloorRing K]

/-- An endpoint that writes, behind the token and the limiter of mutations. -/
def mutate (cfg : SiteSettings) (act : Handling Outcome) (s : Site K) (v : Visit K) :
    Answer K × Site K :=
  match requireApiToken cfg v.authorization with
  | some refusal => (refusal, s)
  | none =>
      let checked := rateLimit cfg cfg.rateLimitMutationsPerMin s.mutationBuckets v
      let s := { s with mutationBuckets := checked.2 }
      match checked.1 with
      | some refusal => (refusal, s)
      | none =>
          let done := opsAnswer act s.server
          (done.1, { s with server := done.2 })

def respond (plat : Platform) (cfg : SiteSettings) :
    Noninterference.Machine (Site K) (Visit K) (Answer K) :=
  fun s v =>
    match v.ask with
    | .webhook req around =>
        let checked := rateLimit cfg cfg.rateLimitWebhookPerMin s.webhookBuckets v
        let s := { s with webhookBuckets := checked.2 }
        match checked.1 with
        | some refusal => (refusal, s)
        | none =>
            let done := webhookAnswer plat cfg req around s.server
            (done.1, { s with server := done.2 })
    | .approve d post => mutate cfg (approveReview cfg.toSettings post d) s v
    | .reject d => mutate cfg (rejectReview cfg.toSettings d) s v
    | .read endpoint =>
        ((requireApiTokenForReads cfg v.authorization).getD (.page endpoint s.server), s)
    | .metrics => (if cfg.metricsEnabled then .metrics s.server s.requests else .metricsOff, s)
    | .healthz => (.alive, s)
    | .readyz database redis => (.ready (database && redis), s)

/-- With `observability_middleware` around them. -/
def serve (plat : Platform) (cfg : SiteSettings) :
    Noninterference.Machine (Site K) (Visit K) (Answer K) :=
  fun s v =>
    let (answer, s) := respond plat cfg s v
    (answer, { s with requests := ⟨v.ask.route, answer.status v.ask, v.elapsed⟩ :: s.requests })

end

end AutoPR.Api
