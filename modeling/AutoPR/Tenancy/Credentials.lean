import AutoPR.Routing.Notices
import AutoPR.Tenancy.AppAuth

/-! Whose token a decision's comment is sent with. A router run and the ops API post
through `TenantGitHubClient`, which asks who owns the repository; a comment command has
a client of its own from the beginning. -/
namespace AutoPR.Tenancy
open Python UnitOfWork Transition Routing

abbrev Process := Nat

/-- The answer of a call of `post_issue_comment`, and the credential of its HTTP request
if it makes one. -/
structure Posting where
  outcome : PostOutcome
  token : Option InstallationToken := none

def Client.send (client : Client) (m : Moment) (calls : Nat) (comment : Comment) : Posting where
  outcome := client.postIssueComment m calls comment
  token := client.token

def notInstalled : ActionResult :=
  { ok := false, kind := "comment", detail := "app not installed on this repository" }

namespace AppAuth

/-- `TenantGitHubClient.post_issue_comment`. Other threads of the process may have changed
its caches between the lookup and the call of `client`. -/
def tenantPost (cfg : ClientSettings) (auth : AppAuth) (found : Moment) (later : AppAuth)
    (m : Moment) (comment : Comment) : Posting × AppAuth :=
  if cfg.writesNothing then ({ outcome := .answered (fakeAnswer 0) }, auth)
  else
    match comment.repo with
    | .str repo =>
        match auth.repoInstallation cfg.unicode found repo with
        | (.error (.gitHubApp detail), auth) =>
            ({ outcome := .answered { ok := false, kind := "comment", detail := detail } }, auth)
        | (.error (.raised _), auth) => ({ outcome := .raised }, auth)
        | (.ok none, auth) => ({ outcome := .answered notInstalled }, auth)
        | (.ok (some i), _) =>
            match later.client cfg m i with
            | (.ok client, auth) => (client.send m 0 comment, auth)
            | (.error _, auth) => ({ outcome := .raised }, auth)
    | _ => ({ outcome := .raised }, auth)

/-- A post by the client that `get_github_client` picks on a multi-tenant instance; the
fake has answered `calls` others. -/
def writerPost (cfg : ClientSettings) (auth : AppAuth) (found : Moment) (later : AppAuth)
    (m : Moment) (calls : Nat) (comment : Comment) : Posting × AppAuth :=
  if cfg.writesNothing then (Client.fake.send m calls comment, auth)
  else auth.tenantPost cfg found later m comment

def owner (u : Unicode) (auth : AppAuth) (found : Moment) : PyVal → Option Int
  | .str repo =>
      match (auth.repoInstallation u found repo).1 with
      | .ok installation => installation
      | .error _ => none
  | _ => none

end AppAuth

structure TenantClient where
  installation : Int
  client : Client
  own : ∀ token, client.token = some token → token.installationId = installation

def AppAuth.tenantClient (cfg : ClientSettings) (auth : AppAuth) (m : Moment) (i : Int) :
    Option TenantClient × AppAuth :=
  match h : auth.client cfg m i with
  | (.ok client, later) => (some ⟨i, client, fun _ => client_own h⟩, later)
  | (.error _, later) => (none, later)

/-- A call of `post_issue_comment` that is about to be made. -/
structure Call where
  decision : Option DecisionId
  comment : Comment
  /-- The comment command whose own client makes it. -/
  command : Option RequestId := none

def Call.by (q : RequestId) (d : DecisionId) (comment : Comment) : Channel → Call
  | .ops => ⟨some d, comment, none⟩
  | .comment _ _ _ => ⟨some d, comment, some q⟩

def RouterPc.call (u : Unicode) : RouterPc → Option Call
  | .notifying _ d _ comment => some ⟨some d, comment, none⟩
  | .posting run target =>
      match run.comment u with
      | .ok (some comment) => some ⟨target.map (·.1), comment, none⟩
      | _ => none
  | _ => none

def RequestPc.call (u : Unicode) (q : RequestId) : RequestPc → Option Call
  | .posting channel d copy =>
      match copy.comment u with
      | .ok (some comment) => some (Call.by q d comment channel)
      | _ => none
  | _ => none

def nextCall (u : Unicode) (s : State) : Actor → Option Call
  | .router r => RouterPc.call u (s.routers r)
  | .request q => RequestPc.call u q (s.requests q)

def answering (s : State) (outcome : PostOutcome) : Actor → Step
  | .router r =>
      match s.routers r with
      | .notifying _ _ _ _ => .router r (.notify outcome)
      | _ => .router r (.post outcome)
  | .request q => .request q (.post outcome)

def needsClient (u : Unicode) (s : State) : Step → Bool
  | .router _ (.notify _) => true
  | .router r (.post _) => (nextCall u s (.router r)).isSome
  | .request q (.post _) => (nextCall u s (.request q)).isSome
  | .request _ (.begin _ (.comment _ _ _) _) => true
  | _ => false

/-- A comment that has been sent, and with what. -/
structure Sent where
  decision : Option DecisionId
  comment : Comment
  token : InstallationToken

structure Deployment where
  reviews : State
  caches : Process → AppAuth
  clients : RequestId → Option TenantClient
  sent : List Sent

inductive Act where
  /-- A step without a client. -/
  | own (a : Step)
  /-- A comment command, once its author is authorised. -/
  | begin (q : RequestId) (verb : Verb) (repo : String) (prNumber installation : Int)
      (d : DecisionId) (m : Moment)
  | post (actor : Actor) (found : Moment) (later : AppAuth) (m : Moment) (calls : Nat)
  /-- Any other use of a process's caches. -/
  | caches (p : Process) (auth : AppAuth)

namespace Deployment

def initial (ledger : Ledger) (caches : Process → AppAuth) : Deployment where
  reviews := .initial ledger
  caches := caches
  clients := fun _ => none
  sent := []

def send (cfg : ClientSettings) (s : Deployment) (p : Process) (found : Moment)
    (later : AppAuth) (m : Moment) (calls : Nat) (call : Call) : Option (Posting × AppAuth) :=
  match call.command with
  | none => some ((s.caches p).writerPost cfg found later m calls call.comment)
  | some q => (s.clients q).map fun held => (held.client.send m calls call.comment, s.caches p)

def step (cfg : ClientSettings) (home : Actor → Process) (s : Deployment) :
    Act → Option Deployment
  | .own a =>
      if needsClient cfg.unicode s.reviews a then none
      else (Routing.step cfg.toSettings s.reviews a).map fun reviews => { s with reviews := reviews }
  | .begin q verb repo prNumber installation d m =>
      let p := home (.request q)
      match (s.caches p).tenantClient cfg m installation with
      | (none, auth) => some { s with caches := Function.update s.caches p auth }
      | (some client, auth) =>
          let a := .request q (.begin verb (.comment repo prNumber installation) d)
          (Routing.step cfg.toSettings s.reviews a).map fun reviews =>
            { s with
              reviews := reviews
              caches := Function.update s.caches p auth
              clients := Function.update s.clients q (some client) }
  | .post actor found later m calls => do
      let call ← nextCall cfg.unicode s.reviews actor
      let (posting, auth) ← s.send cfg (home actor) found later m calls call
      let reviews ← Routing.step cfg.toSettings s.reviews
        (answering s.reviews posting.outcome actor)
      return { s with
        reviews := reviews
        caches := Function.update s.caches (home actor) auth
        sent := (posting.token.map fun token => ⟨call.decision, call.comment, token⟩).toList ++
          s.sent }
  | .caches p auth => some { s with caches := Function.update s.caches p auth }

/-- Where a row's comment goes through `TenantGitHubClient`, its repository is not taken
for another installation's than the row's. -/
def ownerKept (cfg : ClientSettings) (home : Actor → Process) (s : Deployment) : Act → Bool
  | .post actor found _ _ _ =>
      match nextCall cfg.unicode s.reviews actor with
      | some ⟨some d, comment, none⟩ =>
          cfg.writesNothing || ((s.reviews.rows d).bind (·.installationId)).all fun i =>
            ((s.caches (home actor)).owner cfg.unicode found comment.repo).all (· = i)
      | _ => true
  | _ => true

end Deployment

def deployments (cfg : ClientSettings) (ledger : Ledger) (caches : Process → AppAuth)
    (home : Actor → Process) : System Deployment Act where
  init := .initial ledger caches
  step := Deployment.step cfg home

section
variable {cfg : ClientSettings} {auth auth' later : AppAuth} {found m : Moment} {calls : Nat}
  {comment : Comment} {posting : Posting} {token : InstallationToken}

theorem tenantPost_owner (h : auth.tenantPost cfg found later m comment = (posting, auth'))
    (htoken : posting.token = some token) :
    auth.owner cfg.unicode found comment.repo = some token.installationId := by
  unfold AppAuth.tenantPost at h
  split at h
  · cases h
    cases htoken
  · split at h
    · rename_i repo hrepo
      rw [hrepo]
      split at h
      · cases h
        cases htoken
      · cases h
        cases htoken
      · cases h
        cases htoken
      · rename_i i looked hlooked
        split at h
        · rename_i client auth'' hclient
          cases h
          have hown : token.installationId = i := client_own hclient htoken
          rw [hown]
          simp only [AppAuth.owner, hlooked]
        · cases h
          cases htoken
    · cases h
      cases htoken

theorem writerPost_owner (h : auth.writerPost cfg found later m calls comment = (posting, auth'))
    (htoken : posting.token = some token) : cfg.writesNothing = false ∧
      auth.owner cfg.unicode found comment.repo = some token.installationId := by
  unfold AppAuth.writerPost at h
  split at h
  · cases h
    cases htoken
  · rename_i hwrites
    exact ⟨Bool.eq_false_iff.mpr hwrites, tenantPost_owner h htoken⟩

theorem tenantClient_installation {i : Int} {client : TenantClient}
    (h : auth.tenantClient cfg m i = (some client, auth')) : client.installation = i := by
  unfold AppAuth.tenantClient at h
  split at h
  · cases h
    rfl
  · cases h

end

def channelTenant (d : DecisionId) : Channel → Option (Int × Option DecisionId)
  | .ops => none
  | .comment _ _ installation => some (installation, some d)

def commandTenant : RequestPc → Option (Int × Option DecisionId)
  | .looking _ _ _ installation _ => some (installation, none)
  | .claiming channel d _ | .retrying channel d _ | .posting channel d _ => channelTenant d channel
  | _ => none

section
variable {cfg : Settings} {channel : Channel} {d : DecisionId} {copy : ReviewDecision}
  {q : RequestId} {tenant : Int × Option DecisionId}

theorem finish_tenant (verb : Verb) (outcome : Outcome) :
    commandTenant (channel.finish d verb outcome) = none := by
  obtain heq | ⟨comment, heq⟩ := finish_cases channel d verb outcome <;> rw [heq] <;> rfl

theorem startRequest_tenant {verb : Verb}
    (h : commandTenant (startRequest cfg verb channel d) = some tenant) :
    ∃ repo n installation, channel = .comment repo n installation := by
  cases channel with
  | comment repo n installation => exact ⟨repo, n, installation, rfl⟩
  | ops =>
    unfold startRequest at h
    cases hpublic : cfg.publicMode <;> cases verb <;> simp [hpublic, commandTenant, channelTenant] at h

theorem afterClaimed_tenant (h : commandTenant (afterClaimed cfg channel d copy) = some tenant) :
    channelTenant d channel = some tenant := by
  obtain ⟨-, heq⟩ | heq := afterClaimed_cases cfg channel d copy <;> rw [heq] at h
  · cases h
  · exact h

theorem afterClaim_tenant {won : Bool}
    (h : commandTenant (afterClaim cfg q channel d copy won).pc = some tenant) :
    channelTenant d channel = some tenant := by
  cases won with
  | true => exact afterClaimed_tenant h
  | false =>
    replace h : commandTenant (afterLost channel d copy) = some tenant := h
    obtain ⟨outcome, heq⟩ | ⟨-, heq⟩ := afterLost_cases channel d copy <;> rw [heq] at h
    · rw [finish_tenant] at h
      cases h
    · exact h

theorem claimNext_tenant {held : Option ReviewDecision} {won : Bool}
    (h : commandTenant (claimNext cfg q channel d held won).pc = some tenant) :
    channelTenant d channel = some tenant := by
  cases held with
  | none => cases h
  | some copy => exact afterClaim_tenant h

theorem rejectNext_tenant {held : Option ReviewDecision} {won : Bool} :
    commandTenant (rejectNext channel d held won) = none := by
  cases held with
  | none => rfl
  | some copy => exact finish_tenant _ _

theorem requestMove_tenant {rows : DecisionTable} {nextId : DecisionId} {pc : RequestPc}
    {act : RequestAct} {eff : Effect RequestPc} (h : RequestMove cfg rows nextId q pc act eff)
    (ht : commandTenant eff.pc = some tenant) :
    (∃ verb repo n installation d, act = .begin verb (.comment repo n installation) d) ∨
    commandTenant pc = some tenant ∨
    ∃ d row, tenant.2 = some d ∧ commandTenant pc = some (tenant.1, none) ∧ rows d = some row ∧
      row.installationId = some tenant.1 := by
  cases h with
  | begin verb channel d =>
    obtain ⟨repo, n, installation, rfl⟩ := startRequest_tenant ht
    exact .inl ⟨verb, repo, n, installation, d, rfl⟩
  | lookApprove repo n installation d row hrow haddr =>
    simp only [addressable, Bool.and_eq_true, decide_eq_true_eq] at haddr
    cases ht
    exact .inr (.inr ⟨d, row, rfl, rfl, hrow, haddr.2⟩)
  | lookNone verb repo n installation d hrow =>
    rw [finish_tenant] at ht
    cases ht
  | claimWon channel d copy | claimLost channel d copy => exact .inr (.inl (claimNext_tenant ht))
  | load d won row hrow =>
    cases afterClaim_tenant ht
  | retryWon channel d copy => exact .inr (.inl (afterClaimed_tenant ht))
  | retryLost channel d copy =>
    rw [finish_tenant] at ht
    cases ht
  | mark channel d copy result =>
    rw [afterMark, finish_tenant] at ht
    cases ht
  | post channel d copy outcome comment => cases outcome <;> cases ht
  | rejectWon channel d copy | rejectLost channel d copy =>
    rw [rejectNext_tenant] at ht
    cases ht
  | loadRejected d won row =>
    rw [afterReject, finish_tenant] at ht
    cases ht
  | reply comment outcome result => cases result <;> cases ht
  | _ => cases ht

theorem step_tenant {s t : State} {a : Step} (h : Routing.step cfg s a = some t)
    (ht : commandTenant (t.requests q) = some tenant) :
    (∃ verb repo n installation d,
      a = .request q (.begin verb (.comment repo n installation) d)) ∨
    commandTenant (s.requests q) = some tenant ∨
    ∃ d row, tenant.2 = some d ∧ commandTenant (s.requests q) = some (tenant.1, none) ∧
      s.rows d = some row ∧ row.installationId = some tenant.1 := by
  obtain hsame | ⟨act, eff, rfl, hmove, rfl⟩ := step_requests h q
  · exact .inr (.inl (hsame ▸ ht))
  · rw [applyRequest_self] at ht
    obtain ⟨verb, repo, n, installation, d, rfl⟩ | hkept := requestMove_tenant hmove ht
    · exact .inl ⟨verb, repo, n, installation, d, rfl⟩
    · exact .inr hkept

end

inductive Deployment.Move (cfg : ClientSettings) (home : Actor → Process) (s t : Deployment) :
    Act → Prop where
  | own (a) (hfree : needsClient cfg.unicode s.reviews a = false)
      (hstep : Routing.step cfg.toSettings s.reviews a = some t.reviews)
      (hclients : t.clients = s.clients) (hsent : t.sent = s.sent) : Move cfg home s t (.own a)
  | begin (q verb repo n installation d m) (client : TenantClient)
      (hown : client.installation = installation)
      (hstep : Routing.step cfg.toSettings s.reviews
        (.request q (.begin verb (.comment repo n installation) d)) = some t.reviews)
      (hclients : t.clients = Function.update s.clients q (some client)) (hsent : t.sent = s.sent) :
      Move cfg home s t (.begin q verb repo n installation d m)
  | post (actor found later m calls) (call : Call) (posting : Posting) (auth : AppAuth)
      (hcall : nextCall cfg.unicode s.reviews actor = some call)
      (hsend : s.send cfg (home actor) found later m calls call = some (posting, auth))
      (hstep : Routing.step cfg.toSettings s.reviews (answering s.reviews posting.outcome actor) =
        some t.reviews)
      (hclients : t.clients = s.clients)
      (hsent : t.sent =
        (posting.token.map fun token => ⟨call.decision, call.comment, token⟩).toList ++ s.sent) :
      Move cfg home s t (.post actor found later m calls)
  | quiet (act) (hreviews : t.reviews = s.reviews) (hclients : t.clients = s.clients)
      (hsent : t.sent = s.sent) : Move cfg home s t act

section
variable {cfg : ClientSettings} {home : Actor → Process} {s t : Deployment} {a : Act}

theorem deployment_move (h : s.step cfg home a = some t) : s.Move cfg home t a := by
  cases a with
  | own a =>
    simp only [Deployment.step] at h
    split at h
    · cases h
    · rename_i hfree
      obtain ⟨reviews, hstep, rfl⟩ := Option.map_eq_some_iff.mp h
      exact .own a (Bool.eq_false_iff.mpr hfree) hstep rfl rfl
  | begin q verb repo n installation d m =>
    simp only [Deployment.step] at h
    split at h
    · cases h
      exact .quiet _ rfl rfl rfl
    · rename_i client auth hclient
      obtain ⟨reviews, hstep, rfl⟩ := Option.map_eq_some_iff.mp h
      exact .begin q verb repo n installation d m client (tenantClient_installation hclient) hstep
        rfl rfl
  | post actor found later m calls =>
    obtain ⟨call, hcall, h⟩ := Option.bind_eq_some_iff.mp h
    obtain ⟨⟨posting, auth⟩, hsend, h⟩ := Option.bind_eq_some_iff.mp h
    obtain ⟨reviews, hstep, h⟩ := Option.bind_eq_some_iff.mp h
    cases h
    exact .post actor found later m calls call posting auth hcall hsend hstep rfl rfl
  | caches p auth =>
    cases h
    exact .quiet _ rfl rfl rfl

theorem Deployment.Move.reviews (h : s.Move cfg home t a) :
    t.reviews = s.reviews ∨ ∃ b, Routing.step cfg.toSettings s.reviews b = some t.reviews := by
  cases h with
  | own a hfree hstep => exact .inr ⟨a, hstep⟩
  | begin q verb repo n installation d m client hown hstep => exact .inr ⟨_, hstep⟩
  | post actor found later m calls call posting auth hcall hsend hstep => exact .inr ⟨_, hstep⟩
  | quiet act hreviews => exact .inl hreviews

theorem own_begins {q : RequestId} {verb : Verb} {repo : String} {n installation : Int}
    {d : DecisionId} {b : Step} (h : needsClient cfg.unicode s.reviews b = false)
    (hb : b = .request q (.begin verb (.comment repo n installation) d)) : False := by
  subst hb
  cases h

theorem answering_begins {actor : Actor} {outcome : PostOutcome} {q : RequestId} {verb : Verb}
    {channel : Channel} {d : DecisionId}
    (h : answering s.reviews outcome actor = .request q (.begin verb channel d)) : False := by
  cases actor with
  | router r =>
    unfold answering at h
    split at h
    · rename_i heq
      cases heq
      split at h <;> cases h
    · rename_i heq
      cases heq
  | request q' => cases h

theorem nextCall_cases {u : Unicode} {s : State} {actor : Actor} {call : Call}
    (h : nextCall u s actor = some call) :
    (∃ r run d copy comment, s.routers r = .notifying run d copy comment ∧
      call = ⟨some d, comment, none⟩) ∨
    (∃ r run target comment, s.routers r = .posting run target ∧
      call = ⟨target.map (·.1), comment, none⟩) ∨
    ∃ q channel d copy comment, s.requests q = .posting channel d copy ∧
      call = Call.by q d comment channel := by
  cases actor with
  | router r =>
    simp only [nextCall] at h
    cases hpc : s.routers r with
    | notifying run d copy comment =>
      rw [hpc] at h
      cases h
      exact .inl ⟨r, run, d, copy, comment, hpc, rfl⟩
    | posting run target =>
      rw [hpc] at h
      simp only [RouterPc.call] at h
      split at h
      · rename_i comment hcomment
        cases h
        exact .inr (.inl ⟨r, run, target, comment, hpc, rfl⟩)
      · cases h
    | _ =>
      rw [hpc] at h
      cases h
  | request q =>
    simp only [nextCall] at h
    cases hpc : s.requests q with
    | posting channel d copy =>
      rw [hpc] at h
      simp only [RequestPc.call] at h
      split at h
      · rename_i comment hcomment
        cases h
        exact .inr (.inr ⟨q, channel, d, copy, comment, hpc, rfl⟩)
      · cases h
    | _ =>
      rw [hpc] at h
      cases h

theorem nextCall_row {u : Unicode} {s : State} {actor : Actor} {call : Call} {d : DecisionId}
    {settings : Settings} (hwf : WellFormed settings s) (h : nextCall u s actor = some call)
    (hd : call.decision = some d) : ∃ row, s.rows d = some row := by
  obtain ⟨r, run, i, copy, comment, hpc, rfl⟩ | ⟨r, run, target, comment, hpc, rfl⟩ |
    ⟨q, channel, i, copy, comment, hpc, rfl⟩ := nextCall_cases h
  · cases hd
    obtain ⟨row, hrow, -⟩ := hwf.routers r (d, copy) (by simp [hpc, RouterPc.copies])
    exact ⟨row, hrow⟩
  · obtain ⟨⟨i, copy⟩, rfl, rfl⟩ := Option.map_eq_some_iff.mp hd
    obtain ⟨row, hrow, -⟩ := hwf.routers r (i, copy) (by simp [hpc, RouterPc.copies])
    exact ⟨row, hrow⟩
  · have hi : i = d := by cases channel <;> exact Option.some.inj hd
    subst hi
    obtain ⟨row, hrow, -⟩ := hwf.requests q (i, copy) (by simp [hpc, RequestPc.copies])
    exact ⟨row, hrow⟩

theorem nextCall_command {u : Unicode} {s : State} {actor : Actor} {call : Call} {q : RequestId}
    (h : nextCall u s actor = some call) (hq : call.command = some q) :
    ∃ i d, call.decision = some d ∧ commandTenant (s.requests q) = some (i, some d) := by
  obtain ⟨r, run, d, copy, comment, hpc, rfl⟩ | ⟨r, run, target, comment, hpc, rfl⟩ |
    ⟨q', channel, d, copy, comment, hpc, rfl⟩ := nextCall_cases h
  · cases hq
  · cases hq
  · cases channel with
    | ops => cases hq
    | comment repo n i =>
      cases hq
      exact ⟨i, d, rfl, by rw [hpc]; rfl⟩

end

/-- Every comment command has the client of its installation and acts on a row of it, and
every comment of a tenant's decision has been sent with a token of that tenant. -/
structure Vouched (s : Deployment) : Prop where
  clients : ∀ q tenant, commandTenant (s.reviews.requests q) = some tenant →
    ∃ client, s.clients q = some client ∧ client.installation = tenant.1
  targets : ∀ q i d, commandTenant (s.reviews.requests q) = some (i, some d) →
    ∃ row, s.reviews.rows d = some row ∧ row.installationId = some i
  sent : ∀ x ∈ s.sent, ∀ d, x.decision = some d → ∃ row, s.reviews.rows d = some row ∧
    ∀ i, row.installationId = some i → x.token.installationId = i

section
variable {cfg : ClientSettings} {home : Actor → Process} {s t : Deployment} {a : Act}

theorem Deployment.Move.rows (h : s.Move cfg home t a) (hwf : WellFormed cfg.toSettings s.reviews)
    {d : DecisionId} {row : ReviewDecision} (hrow : s.reviews.rows d = some row) :
    ∃ new, t.reviews.rows d = some new ∧ new.installationId = row.installationId := by
  obtain hsame | ⟨b, hstep⟩ := h.reviews
  · exact ⟨row, hsame ▸ hrow, rfl⟩
  · obtain ⟨new, hnew, hcontent⟩ := hwf.rows_persist hstep hrow
    exact ⟨new, hnew, congrArg (·.installationId) hcontent⟩

theorem Vouched.step_clients (hs : Vouched s) (h : s.Move cfg home t a) (q : RequestId)
    (tenant : Int × Option DecisionId) (ht : commandTenant (t.reviews.requests q) = some tenant) :
    ∃ client, t.clients q = some client ∧ client.installation = tenant.1 := by
  have hkeep : t.clients = s.clients → (commandTenant (s.reviews.requests q) = some tenant ∨
      ∃ d row, tenant.2 = some d ∧
        commandTenant (s.reviews.requests q) = some (tenant.1, none) ∧
        s.reviews.rows d = some row ∧ row.installationId = some tenant.1) →
      ∃ client, t.clients q = some client ∧ client.installation = tenant.1 := by
    intro hclients hold
    rw [hclients]
    obtain hold | ⟨d, row, -, hold, -⟩ := hold
    · exact hs.clients q tenant hold
    · exact hs.clients q (tenant.1, none) hold
  cases h with
  | own b hfree hstep hclients hsent =>
    obtain ⟨verb, repo, n, installation, d, hb⟩ | hold := step_tenant hstep ht
    · exact (own_begins hfree hb).elim
    · exact hkeep hclients hold
  | begin q' verb repo n installation d m client hown hstep hclients hsent =>
    obtain ⟨eff, hmove, hreviews⟩ := step_request hstep
    rw [hclients]
    by_cases hq : q = q'
    · subst hq
      refine ⟨client, Function.update_self .., ?_⟩
      rw [hreviews, applyRequest_self] at ht
      cases hpc : s.reviews.requests q with
      | idle =>
        rw [hpc] at hmove
        cases hmove
        cases ht
        exact hown
      | _ =>
        rw [hpc] at hmove
        cases hmove
    · rw [hreviews, applyRequest_of_ne _ _ _ hq] at ht
      rw [Function.update_of_ne hq]
      exact hs.clients q tenant ht
  | post actor found later m calls call posting auth hcall hsend hstep hclients hsent =>
    obtain ⟨verb, repo, n, installation, d, hb⟩ | hold := step_tenant hstep ht
    · exact (answering_begins hb).elim
    · exact hkeep hclients hold
  | quiet act hreviews hclients hsent =>
    rw [hreviews] at ht
    exact hkeep hclients (.inl ht)

theorem Vouched.step_targets (hs : Vouched s) (hwf : WellFormed cfg.toSettings s.reviews)
    (h : s.Move cfg home t a) (q : RequestId) (i : Int) (d : DecisionId)
    (ht : commandTenant (t.reviews.requests q) = some (i, some d)) :
    ∃ row, t.reviews.rows d = some row ∧ row.installationId = some i := by
  have hfound : ∃ row, s.reviews.rows d = some row ∧ row.installationId = some i := by
    obtain hsame | ⟨b, hstep⟩ := h.reviews
    · exact hs.targets q i d (hsame ▸ ht)
    · obtain ⟨verb, repo, n, installation, d', rfl⟩ | hold | ⟨d', row, hd, -, hrow, hi⟩ :=
        step_tenant hstep ht
      · obtain ⟨eff, hmove, hreviews⟩ := step_request hstep
        rw [hreviews, applyRequest_self] at ht
        cases hpc : s.reviews.requests q with
        | idle =>
          rw [hpc] at hmove
          cases hmove
          cases ht
        | _ =>
          rw [hpc] at hmove
          cases hmove
      · exact hs.targets q i d hold
      · cases hd
        exact ⟨row, hrow, hi⟩
  obtain ⟨row, hrow, hi⟩ := hfound
  obtain ⟨new, hnew, hsame⟩ := h.rows hwf hrow
  exact ⟨new, hnew, hsame.trans hi⟩

theorem Vouched.send_own (hs : Vouched s) {actor : Actor} {found m : Moment} {later : AppAuth}
    {calls : Nat} {call : Call} {posting : Posting} {auth : AppAuth} {d : DecisionId}
    {row : ReviewDecision} {i : Int} {token : InstallationToken}
    (hkept : s.ownerKept cfg home (.post actor found later m calls) = true)
    (hcall : nextCall cfg.unicode s.reviews actor = some call)
    (hsend : s.send cfg (home actor) found later m calls call = some (posting, auth))
    (htoken : posting.token = some token) (hd : call.decision = some d)
    (hrow : s.reviews.rows d = some row) (hi : row.installationId = some i) :
    token.installationId = i := by
  obtain ⟨decision, comment, command⟩ := call
  cases hd
  cases command with
  | none =>
    obtain ⟨hwrites, howner⟩ := writerPost_owner (Option.some.inj hsend) htoken
    simpa [Deployment.ownerKept, hcall, hwrites, hrow, hi, howner] using hkept
  | some q =>
    obtain ⟨held, hheld, heq⟩ := Option.map_eq_some_iff.mp hsend
    cases heq
    obtain ⟨j, d', hd', htenant⟩ := nextCall_command hcall rfl
    cases hd'
    obtain ⟨client, hclient, hinst⟩ := hs.clients q _ htenant
    cases hclient.symm.trans hheld
    obtain ⟨row', hrow', hj⟩ := hs.targets q j d htenant
    cases hrow'.symm.trans hrow
    cases hj.symm.trans hi
    exact (held.own token htoken).trans hinst

theorem Vouched.step_sent (hs : Vouched s) (hwf : WellFormed cfg.toSettings s.reviews)
    (h : s.Move cfg home t a) (hkept : s.ownerKept cfg home a = true) (x : Sent) (hx : x ∈ t.sent)
    (d : DecisionId) (hd : x.decision = some d) : ∃ row, t.reviews.rows d = some row ∧
      ∀ i, row.installationId = some i → x.token.installationId = i := by
  have hfound : ∃ row, s.reviews.rows d = some row ∧
      ∀ i, row.installationId = some i → x.token.installationId = i := by
    cases h with
    | post actor found later m calls call posting auth hcall hsend hstep hclients hsent =>
      rw [hsent] at hx
      obtain hnew | hold := List.mem_append.mp hx
      · obtain ⟨token, htoken, rfl⟩ := Option.map_eq_some_iff.mp (Option.mem_toList.mp hnew)
        obtain ⟨row, hrow⟩ := nextCall_row hwf hcall hd
        exact ⟨row, hrow, fun i hi => hs.send_own hkept hcall hsend htoken hd hrow hi⟩
      · exact hs.sent x hold d hd
    | own b hfree hstep hclients hsent => exact hs.sent x (hsent ▸ hx) d hd
    | begin q verb repo n installation i m client hown hstep hclients hsent =>
      exact hs.sent x (hsent ▸ hx) d hd
    | quiet act hreviews hclients hsent => exact hs.sent x (hsent ▸ hx) d hd
  obtain ⟨row, hrow, hall⟩ := hfound
  obtain ⟨new, hnew, hsame⟩ := h.rows hwf hrow
  exact ⟨new, hnew, fun i hi => hall i (hsame.symm.trans hi)⟩

theorem Vouched.step (hs : Vouched s) (hwf : WellFormed cfg.toSettings s.reviews)
    (h : s.step cfg home a = some t) (hkept : s.ownerKept cfg home a = true) : Vouched t where
  clients := hs.step_clients (deployment_move h)
  targets := hs.step_targets hwf (deployment_move h)
  sent := hs.step_sent hwf (deployment_move h) hkept

end

section
variable {cfg : ClientSettings} {ledger : Ledger} {caches : Process → AppAuth}
  {home : Actor → Process} {s : Deployment}

theorem Reachable.reviews {ok : Deployment → Act → Prop}
    (h : (deployments cfg ledger caches home).Reachable ok s) :
    (Routing.reviews cfg.toSettings ledger).Reachable anyStep s.reviews := by
  refine Reachable.refine (J := fun _ => True) (fun _ _ => trivial) rfl ?_ h
  intro u a v _ _ hstep
  obtain hsame | ⟨b, hb⟩ := (deployment_move hstep).reviews
  · exact .inl hsame
  · exact .inr ⟨b, trivial, hb⟩

theorem Reachable.vouched
    (h : (deployments cfg ledger caches home).Reachable
      (fun u a => u.ownerKept cfg home a = true) s) : Vouched s := by
  refine Reachable.invariant (J := fun u => WellFormed cfg.toSettings u.reviews)
    (fun _ hu => Reachable.wellFormed (Reachable.reviews hu)) ⟨?_, ?_, ?_⟩
    (fun _ _ _ hwf hok hstep hs => hs.step hwf hstep hok) h
  · intro q tenant htenant
    cases htenant
  · intro q i d htenant
    cases htenant
  · intro x hx
    cases hx

/-- In every run whose repositories keep their owners, whatever the caches hold, each
comment of a tenant's decision is sent with a token minted for that tenant. -/
theorem sent_with_own_token {x : Sent} {d : DecisionId} {row : ReviewDecision} {i : Int}
    (h : (deployments cfg ledger caches home).Reachable
      (fun u a => u.ownerKept cfg home a = true) s)
    (hx : x ∈ s.sent) (hd : x.decision = some d) (hrow : s.reviews.rows d = some row)
    (hi : row.installationId = some i) : x.token.installationId = i := by
  obtain ⟨row', hrow', hall⟩ := (Reachable.vouched h).sent x hx d hd
  cases hrow'.symm.trans hrow
  exact hall i hi

end

def ClientSettings.live : ClientSettings := { unicode := .ascii, githubDryRun := false }

/-- GitHub names this owner for every repository, mints tokens and accepts comments. -/
def Moment.owned (now : Time) (installation : Int) : Moment where
  now := now
  parseExpiry _ := .ok 3600
  mint _ := .ok ⟨201, "", .ok (.dict [("token", .str "ghs_1")])⟩
  repoInstallation _ := .ok ⟨200, "", .ok (.dict [("id", .int installation)])⟩
  permission _ _ _ := .ok ⟨200, "", .ok (.dict [("permission", .str "admin")])⟩
  comment _ _ := .answered posted

/-- A review is queued and announced for installation 5, and approved by the operator ten
minutes later. -/
def approvedLater (owner : Int) : List Act :=
  (routerRun 0 [.start (.tenant "high") true, .select, .insert]).map .own ++
  [.post (.router 0) (.owned 0 5) .new (.owned 0 5) 0] ++
  (requestRun 0 [.begin .approve .ops 0, .claim, .load]).map .own ++
  [.post (.request 0) (.owned 600 owner) .new (.owned 600 owner) 0]

abbrev smallDeployment : System Deployment Act :=
  deployments .live .empty (fun _ => .new) (fun _ => 0)

def keptState : Deployment := smallDeployment.after (approvedLater 5) (by decide)

def transferredState : Deployment := smallDeployment.after (approvedLater 9) (by decide)

theorem keptState_reachable :
    smallDeployment.Reachable (fun u a => u.ownerKept .live (fun _ => 0) a = true) keptState :=
  Reachable.after (by decide) (by decide)

theorem sent_with_own_token_approved :
    (keptState.sent.head (by decide)).token.installationId = 5 :=
  sent_with_own_token keptState_reachable (List.head_mem (by decide)) rfl rfl (by decide)

/-- The row is the old owner's, the token the new owner's. -/
theorem transferred_foreign_token : smallDeployment.Reachable anyStep transferredState ∧
    ∃ x ∈ transferredState.sent, x.decision = some 0 ∧ x.token.installationId = 9 ∧
      ∃ row, transferredState.reviews.rows 0 = some row ∧ row.installationId = some 5 :=
  ⟨Reachable.after _ (System.Admits.any _ _), _, List.head_mem (by decide), rfl, by decide, _, rfl,
    by decide⟩

end AutoPR.Tenancy
