import AutoPR.Clients.Selection

/-! Every way to a comment on GitHub at once: router runs and the ops API write through the client
that the settings pick, a comment command through the one it has made. Caches start empty and
change only by what GitHub answers. -/
namespace AutoPR.Clients
open Python Transition Routing Tenancy Commands
open Webhook (getAppAuth)

abbrev Lookup := Except AuthError (Option Int)

def tenantSend (cfg : ClientSettings) (auth : AppAuth) (found : Lookup) (m : Moment)
    (comment : Comment) : Posting × AppAuth :=
  match found with
  | .error (.gitHubApp detail) =>
      ({ outcome := .answered { ok := false, kind := "comment", detail := detail } }, auth)
  | .error (.raised _) => ({ outcome := .raised }, auth)
  | .ok none => ({ outcome := .answered notInstalled }, auth)
  | .ok (some i) =>
      match auth.client cfg m i with
      | (.ok client, auth) => (client.send m 0 comment, auth)
      | (.error _, auth) => ({ outcome := .raised }, auth)

theorem tenantPost_eq {cfg : ClientSettings} {auth : AppAuth} {found m : Moment} {repo : String}
    {comment : Comment} (hwrites : cfg.writesNothing = false) (hrepo : comment.repo = .str repo) :
    auth.tenantPost cfg found (auth.repoInstallation cfg.unicode found repo).2 m comment =
      tenantSend cfg (auth.repoInstallation cfg.unicode found repo).2
        (auth.repoInstallation cfg.unicode found repo).1 m comment := by
  unfold AppAuth.tenantPost tenantSend
  simp only [hrepo, hwrites, Bool.false_eq_true, ↓reduceIte]
  generalize auth.repoInstallation cfg.unicode found repo = answer
  obtain ⟨looked, later⟩ := answer
  cases looked with
  | error e => cases e <;> rfl
  | ok installation => cases installation <;> rfl

inductive Order where
  | reply (body : String)
  | decide (verb : Verb) (d : DecisionId)

def orderOf (u : Unicode) (db : Database) (rows : DecisionTable) (c : Cleared) : Order :=
  let command := c.request.command
  if command.verb = "help" then .reply helpText
  else if command.verb = "status" then
    .reply (statusText u (pendingForRepo db rows c.request.repo c.installation))
  else
    match command.decisionId with
    | none =>
        .reply ("Usage: `/autopr " ++ command.verb ++ " <id>` — see `/autopr status` for ids.")
    | some d => .decide (if command.verb = "reject" then .reject else .approve) d

theorem obey_order (cfg : CommandSettings) (w : Nat → Moment) (db : Database) (c : Cleared)
    (desk : Desk) :
    obey cfg w db c desk =
      (do
        let n ← Commands.orRaise (c.request.prNumber.toInt cfg.unicode)
        match orderOf cfg.unicode db desk.rows c with
        | .reply body => sendReply w c.client c.request.repo n body
        | .decide verb d =>
            match ← decisionFor cfg.unicode d c.request.repo c.installation with
            | none =>
                sendReply w c.client c.request.repo n
                  ("No decision `#" ++ toString d ++ "` is awaiting review on this repository.")
            | some _ =>
                match verb with
                | .reject => reject w c.client d c.request.repo n c.request.actor
                | .approve => approve cfg w c.client d c.request.repo n c.request.actor) desk := by
  unfold obey orderOf
  cases hnumber : c.request.prNumber.toInt cfg.unicode with
  | error e => rfl
  | ok n =>
    dsimp only [Commands.orRaise]
    rw [pure_bind, pure_bind]
    split
    · rfl
    · split
      · rfl
      · cases c.request.command.decisionId with
        | none => rfl
        | some d =>
          dsimp only
          split
          · rfl
          · rfl

inductive Kind where
  | decision
  | notice
  | reply
deriving DecidableEq

structure Due where
  kind : Kind
  comment : Comment
  /-- Whether it goes through a command's own client. -/
  command : Bool

structure Post where
  actor : Actor
  kind : Kind
  comment : Comment
  credential : Credential

inductive Trace where
  /-- GitHub's answer about the owner of a repository. -/
  | answered (p : Process) (repo : String) (installation : Option Int)
  /-- A comment whose author is authorised. -/
  | delivered (q : RequestId) (payload : PyVal)
  | posted (post : Post)

structure Deployment where
  tenants : Installations
  reviews : State
  caches : Process → AppAuth
  /-- The commands that have passed the checks, with their clients. -/
  held : RequestId → Option Cleared
  /-- A reply that waits to be sent. -/
  replies : RequestId → Option Comment
  /-- What a post through the App has found out so far. -/
  looked : Actor → Option (String × Lookup)
  /-- Newest first. -/
  trace : List Trace

structure Setup where
  cfg : AppSettings
  writer : Except AuthError Writer
  app : Except AuthError Bool
  createdAt : DecisionId → Time
  home : Actor → Process

def AppSettings.setup (cfg : AppSettings) (createdAt : DecisionId → Time)
    (home : Actor → Process) : Setup where
  cfg := cfg
  writer := getGithubClient cfg
  app := getAppAuth cfg.toWebhookSettings
  createdAt := createdAt
  home := home

inductive Act where
  /-- A step without a client. -/
  | own (a : Step)
  /-- A delivered comment, with the moments of its checks. -/
  | comment (q : RequestId) (payload : PyVal) (w : Nat → Moment)
  /-- The first call of a post through the App. -/
  | lookup (actor : Actor) (m : Moment)
  /-- The post; `pat` is GitHub's answer to the operator's token. -/
  | post (actor : Actor) (m : Moment) (pat : PostOutcome) (calls : Nat)
  /-- Other calls of a process that use its caches. -/
  | find (p : Process) (repo : String) (m : Moment)
  | mint (p : Process) (i : Int) (m : Moment)
  | restart (p : Process)
  /-- What tenancy events leave. -/
  | tenants (t : Installations)

namespace Deployment

def initial (ledger : Ledger) (tenants : Installations) : Deployment where
  tenants := tenants
  reviews := .initial ledger
  caches := fun _ => .new
  held := fun _ => none
  replies := fun _ => none
  looked := fun _ => none
  trace := []

/-- The handler reads the rows from its desk, and here only how many there are. -/
def database (setup : Setup) (s : Deployment) : Database where
  tenants := s.tenants
  decisions := { Ledger.empty with
    nextId := s.reviews.nextId
    rows_lt := by
      intro d row h
      cases h }
  createdAt := setup.createdAt

def requestDue (u : Unicode) (s : Deployment) (q : RequestId) : Option Due :=
  match s.replies q with
  | some comment => some ⟨.reply, comment, true⟩
  | none =>
      match s.reviews.requests q with
      | .replying comment _ => some ⟨.reply, comment, true⟩
      | pc => (RequestPc.call u q pc).map fun call => ⟨.decision, call.comment, call.command.isSome⟩

def routerDue (u : Unicode) (s : Deployment) (r : RouterId) : Option Due :=
  match s.reviews.routers r with
  | .notifying _ _ _ comment => some ⟨.notice, comment, false⟩
  | pc => (RouterPc.call u pc).map fun call => ⟨.decision, call.comment, false⟩

def due (u : Unicode) (s : Deployment) : Actor → Option Due
  | .router r => s.routerDue u r
  | .request q => s.requestDue u q

def take (cfg : Settings) (s : Deployment) (outcome : PostOutcome) (actor : Actor) :
    Option Deployment :=
  let stepped (a : Step) := (Routing.step cfg s.reviews a).map ({ s with reviews := · })
  match actor with
  | .router r => stepped (answering s.reviews outcome (.router r))
  | .request q =>
      match s.replies q with
      | some _ => some { s with replies := Function.update s.replies q none }
      | none =>
          match s.reviews.requests q with
          | .replying _ _ => stepped (.request q (.reply outcome))
          | _ => stepped (.request q (.post outcome))

def ask (u : Unicode) (s : Deployment) (p : Process) (repo : String) (m : Moment) :
    Lookup × Deployment :=
  let (found, auth) := (s.caches p).repoInstallation u m repo
  let heard : List Trace :=
    match (s.caches p).cachedRepo u m.now repo, found with
    | none, .ok installation => [.answered p repo installation]
    | _, _ => []
  (found, { s with caches := Function.update s.caches p auth, trace := heard ++ s.trace })

def send (setup : Setup) (s : Deployment) (actor : Actor) (m : Moment) (pat : PostOutcome)
    (calls : Nat) (d : Due) : Option (PostOutcome × Option Credential × AppAuth) :=
  let auth := s.caches (setup.home actor)
  if d.command then
    match actor with
    | .router _ => none
    | .request q => (s.held q).map fun c =>
        let posting := c.client.send m calls d.comment
        (posting.outcome, posting.token.map .installation, auth)
  else
    match setup.writer with
    | .error _ => none
    | .ok .fake => some (.answered (fakeAnswer calls), none, auth)
    | .ok (.http token) => some (pat, some (.pat token), auth)
    | .ok .tenant =>
        if setup.cfg.writesNothing then some (.answered (fakeAnswer 0), none, auth)
        else
          match d.comment.repo with
          | .str repo =>
              match (s.looked actor).filter (·.1 = repo) with
              | some (_, found) =>
                  let (posting, auth) :=
                    tenantSend setup.cfg.toClientSettings auth found m d.comment
                  some (posting.outcome, posting.token.map .installation, auth)
              | none => none
          | _ => some (.raised, none, auth)

def follow (setup : Setup) (s : Deployment) (q : RequestId) (c : Cleared) : Option Deployment :=
  match c.request.prNumber.toInt setup.cfg.unicode with
  | .error _ => some s
  | .ok n =>
      match orderOf setup.cfg.unicode (s.database setup) s.reviews.rows c with
      | .reply body =>
          some { s with replies :=
            Function.update s.replies q (some ⟨.str c.request.repo, n, body⟩) }
      | .decide verb d =>
          let a := .request q (.begin verb (.comment c.request.repo n c.installation) d)
          (Routing.step setup.cfg.toSettings s.reviews a).map ({ s with reviews := · })

def deliver (setup : Setup) (s : Deployment) (q : RequestId) (payload : PyVal)
    (w : Nat → Moment) : Option Deployment :=
  let p := setup.home (.request q)
  match setup.app with
  | .error _ => none
  | .ok configured =>
      if (s.held q).isSome then none
      else
        match clear setup.cfg.toCommandSettings w (s.database setup) configured payload
            ⟨s.caches p, s.reviews.rows, []⟩ with
        | .error _ desk | .ok (.error _) desk =>
            some { s with caches := Function.update s.caches p desk.auth }
        | .ok (.ok c) desk =>
            follow setup { s with
              caches := Function.update s.caches p desk.auth
              held := Function.update s.held q (some c)
              trace := .delivered q payload :: s.trace } q c

def quiet (u : Unicode) (s : Deployment) : Step → Bool
  | .request _ (.reply _) => false
  | a => !needsClient u s.reviews a

def step (setup : Setup) (s : Deployment) : Act → Option Deployment
  | .own a =>
      if s.quiet setup.cfg.unicode a then
        (Routing.step setup.cfg.toSettings s.reviews a).map ({ s with reviews := · })
      else none
  | .comment q payload w => s.deliver setup q payload w
  | .lookup actor m => do
      let d ← s.due setup.cfg.unicode actor
      match d.comment.repo with
      | .str repo =>
          let (found, s) := s.ask setup.cfg.unicode (setup.home actor) repo m
          return { s with looked := Function.update s.looked actor (some (repo, found)) }
      | _ => none
  | .post actor m pat calls => do
      let d ← s.due setup.cfg.unicode actor
      let (outcome, credential, auth) ← s.send setup actor m pat calls d
      let t ← s.take setup.cfg.toSettings outcome actor
      let sent : List Trace :=
        (credential.map fun c => Trace.posted ⟨actor, d.kind, d.comment, c⟩).toList
      return { t with
        caches := Function.update t.caches (setup.home actor) auth
        looked := Function.update t.looked actor none
        trace := sent ++ t.trace }
  | .find p repo m => some (s.ask setup.cfg.unicode p repo m).2
  | .mint p i m =>
      let auth := ((s.caches p).installationToken setup.cfg.unicode m i).2
      some { s with caches := Function.update s.caches p auth }
  | .restart p => some { s with caches := Function.update s.caches p .new }
  | .tenants t => some { s with tenants := t }

end Deployment

def deployments (setup : Setup) (ledger : Ledger) (tenants : Installations) :
    System Deployment Act where
  init := .initial ledger tenants
  step := Deployment.step setup

end AutoPR.Clients
