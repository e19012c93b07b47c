import AutoPR.Clients.Authorised
import AutoPR.Pipeline.Patch

/-! The files that the reviewer is given, against those that GitHub lists. The reader and the
writer are picked from different credentials. -/
namespace AutoPR.Clients
open Python Transition Routing Tenancy Pipeline
open Commands (friendly)
open Webhook (getAppAuth Loaded)

/-- An entry of GitHub's list; a binary file has no patch. -/
structure ListedFile where
  filename : String
  patch : Option String

def ListedFile.changed (f : ListedFile) : ChangedFile := ⟨f.filename, f.patch.getD ""⟩

def perPage : ℕ := 100

/-- GitHub's answer for a page; the first one has the number 0 here. -/
def page (listing : List ListedFile) (k : ℕ) : List ListedFile :=
  (listing.drop (perPage * k)).take perPage

/-- The loop over the pages, from one of them on. A page that fails raises. -/
def listPages (fails : ℕ → Bool) (listing : List ListedFile) (k : ℕ) :
    Option (List ChangedFile) :=
  if fails k then none
  else
    let files := (page listing k).map ListedFile.changed
    if (page listing k).length < perPage then some files
    else (listPages fails listing (k + 1)).map (files ++ ·)
termination_by listing.length - perPage * k
decreasing_by
  rename_i hfull
  simp only [page, perPage, List.length_take, List.length_drop, not_lt] at hfull
  simp only [perPage]
  omega

def Reader.listPullFiles (fails : ℕ → Bool) (listing : List ListedFile) :
    Reader → Option (List ChangedFile)
  | .fake => some []
  | .http _ => listPages fails listing 0

theorem listPages_eq {fails : ℕ → Bool} {listing : List ListedFile} {k : ℕ}
    {files : List ChangedFile} (h : listPages fails listing k = some files) :
    files = (listing.drop (perPage * k)).map ListedFile.changed := by
  induction k using listPages.induct fails listing generalizing files with
  | case1 k hfails =>
    rw [listPages, if_pos hfails] at h
    cases h
  | case2 k hfails hlast =>
    rw [listPages, if_neg hfails] at h
    dsimp only at h
    rw [if_pos hlast] at h
    cases h
    have hlength : (listing.drop (perPage * k)).length ≤ perPage := by
      simp only [page, List.length_take] at hlast
      omega
    rw [page, List.take_of_length_le hlength]
  | case3 k hfails hfull ih =>
    rw [listPages, if_neg hfails] at h
    dsimp only at h
    rw [if_neg hfull] at h
    obtain ⟨rest, hrest, rfl⟩ := Option.map_eq_some_iff.mp h
    rw [ih hrest, ← List.map_append, page, Nat.mul_succ, ← List.drop_drop, List.take_append_drop]

theorem listPullFiles_http {fails : ℕ → Bool} {listing : List ListedFile}
    {files : List ChangedFile} {token : String}
    (h : (Reader.http token).listPullFiles fails listing = some files) :
    files = listing.map ListedFile.changed := listPages_eq h

theorem getGithubReader_fake {cfg : AppSettings} (h : getGithubReader cfg = .fake) :
    cfg.githubToken = "" ∧ cfg.handoffMode = false := by
  unfold getGithubReader at h
  split at h
  · cases h
  · rename_i htoken
    split at h
    · cases h
    · rename_i hhandoff
      exact ⟨not_not.mp htoken, Bool.eq_false_iff.mpr hhandoff⟩

/-- The worker's pipeline, with the settings of the process. -/
def AppSettings.pipeline (cfg : AppSettings) (maxFixAttempts : Int) (loads : String → Loaded) :
    PipelineSettings where
  routing := cfg.toSettings
  maxFixAttempts := maxFixAttempts
  loads := loads

/-- The job may be run so that the reviewer is given these files and the router posts the review
over HTTP. -/
inductive PostsReview (cfg : AppSettings) (pipeline : PipelineSettings) (job : Jobs.PRJob)
    (listing : List ListedFile) (files : List ChangedFile) : Prop
  | run (fails : ℕ → Bool) (snapshot : Snapshot) (answers : ℕ → Answer) (k : ℕ)
      (createdAt : DecisionId → Time) (home : Actor → Process) (ledger : Ledger)
      (tenants : Installations) (s : Deployment) (r : RouterId) (comment : Comment)
      (credential : Credential)
      (hread : (getGithubReader cfg).listPullFiles fails listing = some files)
      (hdue : (jobWalk pipeline job files snapshot answers k).stage = .due .router)
      (hreach : (deployments (cfg.setup createdAt home) ledger tenants).Reachable anyStep s)
      (hstarted : .started r (jobWalk pipeline job files snapshot answers k).state.state.toPRState
        true ∈ s.reviews.events)
      (hposted : .posted ⟨.router r, .decision, comment, credential⟩ ∈ s.trace) :
      PostsReview cfg pipeline job listing files

theorem router_writer {cfg : AppSettings} {createdAt : DecisionId → Time} {home : Actor → Process}
    {ledger : Ledger} {tenants : Installations} {s : Deployment} {r : RouterId} {kind : Kind}
    {comment : Comment} {credential : Credential}
    (hreach : (deployments (cfg.setup createdAt home) ledger tenants).Reachable anyStep s)
    (hposted : .posted ⟨.router r, kind, comment, credential⟩ ∈ s.trace) :
    cfg.writesNothing = false ∧
      (cfg.githubToken ≠ "" ∨ getAppAuth cfg.toWebhookSettings = .ok true) := by
  obtain ⟨earlier, -, hwrites, hcredential⟩ := (Reachable.sound hreach).posts.of_mem hposted
  refine ⟨hwrites, ?_⟩
  cases credential with
  | pat token =>
    obtain ⟨htoken, hne⟩ := http_token hcredential
    rw [htoken] at hne
    exact .inl hne
  | installation token => exact .inr (tenant_configured (hcredential.2 r rfl))

/-- An answer that finds nothing and rates the change as trivial. -/
def trivialReview : String := "\x7b\"risk_score\": \"trivial\"\x7d"

def trivialAnswers (k : ℕ) : Answer :=
  ⟨some (.str (if k = 0 then trivialReview else "")), .raised ""⟩

def trivialState (job : Jobs.PRJob) : PRState :=
  jobState job {
    reviewFindings := some (.list [])
    riskScore := some (.str "trivial")
    summary := some (.str "")
    generatedTests := some (.str "") }

theorem trivial_review {pipeline : PipelineSettings} (state : PipelineState)
    (hloads : pipeline.loads trivialReview = .value (.dict [("risk_score", .str "trivial")])) :
    codeReviewerNode pipeline (trivialAnswers 0).message state = some { state with
      reviewFindings := some (.list [])
      riskScore := some (.str "trivial")
      summary := some (.str "") } := by
  have hanswer : answerJson pipeline (some (.str trivialReview)) =
      some (.dict [("risk_score", .str "trivial")]) := by
    have hstrip : strip trivialReview = trivialReview := by decide
    simp only [answerJson, answerText, messageText, Option.bind_some, parseJson, hstrip, firstJson,
      hloads]
  have hlabel : label pipeline.unicode validRisk "medium" (.str "trivial") = "trivial" := by
    unfold label
    rw [PyVal.toStr, pipeline.unicode.lower_ascii "trivial" (by decide)]
    decide
  have hmessage : (trivialAnswers 0).message = some (.str trivialReview) := rfl
  have hrisk (v : PyVal) : (PyVal.dict [("risk_score", .str "trivial")]).get "risk_score" v =
      .ok (.str "trivial") := rfl
  have hfindings (v : PyVal) : (PyVal.dict [("risk_score", .str "trivial")]).get "findings" v =
      .ok v := rfl
  have hsummary (v : PyVal) : (PyVal.dict [("risk_score", .str "trivial")]).get "summary" v =
      .ok v := rfl
  unfold codeReviewerNode
  simp only [hmessage, hanswer, hrisk, hfindings, hsummary, hlabel, Except.toOption,
    Option.bind_eq_bind, Option.bind_some, hasLength, ↓reduceIte, Option.pure_def]

theorem trivial_walk {pipeline : PipelineSettings} {job : Jobs.PRJob} (files : List ChangedFile)
    (hjob : isCiJob job = false)
    (hloads : pipeline.loads trivialReview = .value (.dict [("risk_score", .str "trivial")])) :
    (jobWalk pipeline job files [] trivialAnswers 2).stage = .due .router ∧
      (jobWalk pipeline job files [] trivialAnswers 2).state.state.toPRState =
        trivialState job := by
  have hstate : handlerState job files [] =
      { toPRState := jobState job {}, changedFiles := files } := by
    unfold handlerState
    rw [hjob]
    rfl
  have hentry : entryRouter (handlerState job files []) = .codeReviewer := by
    rw [entryRouter_eq, handlerState_ci, hjob]
    rfl
  rw [jobWalk_reviewed hentry (trivial_review _ hloads) rfl, hstate]
  exact ⟨rfl, rfl⟩

theorem trivial_route {cfg : Settings} {job : Jobs.PRJob} (hhandoff : cfg.handoffMode = false) :
    ∃ decision, route cfg (trivialState job) = .ok decision ∧ decision.action = .commentReview ∧
      decision.requiresApproval = false := by
  have hrank : riskRank (.str "trivial") = 0 := by decide
  have hauto : (!(decide (riskRank ((trivialState job).riskScore.getD (.str "medium")) ≤
      riskRank (.str cfg.autoCommentMaxRisk)) && !cfg.handoffMode)) = false := by
    change (!(decide (riskRank (.str "trivial") ≤ _) && _)) = false
    rw [hrank, hhandoff]
    simp
  exact ⟨_, rfl, rfl, hauto⟩

theorem auto_posting {cfg : Settings} {state : PRState} {decision : RoutingDecision}
    {repo sha : String} {n : Int} (hroute : route cfg state = .ok decision)
    (haction : decision.action = .commentReview) (hauto : decision.requiresApproval = false)
    (hrepo : state.repo = some (.str repo)) (hnumber : state.prNumber = some (.int n))
    (hsha : state.commitSha = some (.str sha)) :
    ∃ t row, (reviews cfg .empty).exec (routerRun 0 [.start state true, .select, .insert])
        (.initial .empty) = some t ∧
      t.routers 0 = .posting ⟨state, decision⟩ (some (0, row)) ∧
      .started 0 state true ∈ t.events := by
  obtain ⟨key, hkey⟩ : ∃ key, decision.dedupKey cfg.unicode state = .ok key := by
    unfold RoutingDecision.dedupKey
    rw [hrepo, hsha]
    exact ⟨_, rfl⟩
  obtain ⟨row, hrow, hpending⟩ : ∃ row, newDecision cfg.unicode state decision key = .ok row ∧
      row.status = .pending := by
    unfold newDecision
    rw [hrepo, hsha, hnumber]
    exact ⟨_, rfl, rfl⟩
  have hstart : startRun cfg state true = .selecting ⟨state, decision⟩ key := by
    unfold startRun
    simp only [hroute, RoutingDecision.isActionable, haction, hkey]
    rfl
  have hnone (rows : DecisionTable) : findDecision rows 0 key = none := rfl
  have hcreated : afterEnqueue cfg.unicode ⟨state, decision⟩ 0 row true =
      .posting ⟨state, decision⟩ (some (0, row)) := by
    unfold afterEnqueue
    simp [hpending, hauto]
  generalize hexec : (reviews cfg .empty).exec (routerRun 0 [.start state true, .select, .insert])
    (.initial .empty) = result
  simp only [routerRun, List.map_cons, List.map_nil, System.exec, reviews, Routing.step,
    routerStep, hstart, Option.map_some, Option.bind_some, State.applyRouter, Function.update_self,
    State.apply, State.initial, Ledger.empty, hnone, hrow, hcreated, Bool.false_eq_true,
    ↓reduceIte] at hexec
  subst hexec
  refine ⟨_, row, rfl, ?_, ?_⟩
  · simp only [Function.update_self]
  · simp

theorem own_exec {setup : Setup} {ledger : Ledger} {tenants : Installations} {acts : List Step}
    {s : Deployment} {t : State}
    (hquiet : ∀ a ∈ acts, ∀ s : Deployment, s.quiet setup.cfg.unicode a = true)
    (h : (reviews setup.cfg.toSettings ledger).exec acts s.reviews = some t) :
    (deployments setup ledger tenants).exec (acts.map .own) s = some { s with reviews := t } := by
  induction acts generalizing s with
  | nil =>
    cases h
    rfl
  | cons a rest ih =>
    obtain ⟨v, hv, hrest⟩ := Option.bind_eq_some_iff.mp h
    have hstep : (deployments setup ledger tenants).step s (.own a) =
        some { s with reviews := v } := by
      change s.step setup (.own a) = _
      simp only [Deployment.step, hquiet a List.mem_cons_self, ↓reduceIte]
      rw [show Routing.step setup.cfg.toSettings s.reviews a = some v from hv, Option.map_some]
    rw [List.map_cons, System.exec, hstep, Option.bind_some]
    apply ih _ hrest
    intro b hb
    exact hquiet b (List.mem_cons_of_mem a hb)

theorem tenantSend_friendly {cfg : ClientSettings} {auth : AppAuth} {i : Int}
    (comment : Comment) (hwrites : cfg.writesNothing = false) (hfresh : auth.tokens i = none) :
    ∃ token auth', tenantSend cfg auth (.ok (some i)) friendly comment =
      (⟨.answered posted, some token⟩, auth') := by
  have htoken : auth.installationToken cfg.unicode friendly i =
      (.ok ⟨i, "ghs_1", 3540⟩, auth.keepToken ⟨i, "ghs_1", 3540⟩) := by
    unfold AppAuth.installationToken
    rw [hfresh]
    rfl
  have hclient : auth.client cfg friendly i =
      (.ok (.http ⟨i, "ghs_1", 3540⟩), auth.keepToken ⟨i, "ghs_1", 3540⟩) := by
    unfold AppAuth.client
    rw [hwrites, htoken]
    rfl
  unfold tenantSend
  dsimp only
  rw [hclient]
  exact ⟨_, _, rfl⟩

theorem tenant_post {cfg : AppSettings} {createdAt : DecisionId → Time} {home : Actor → Process}
    {ledger : Ledger} {tenants : Installations} {run : RouterRun}
    {target : Option (DecisionId × ReviewDecision)} {comment : Comment} {repo : String} {t : State}
    (hwriter : getGithubClient cfg = .ok .tenant) (hwrites : cfg.writesNothing = false)
    (hposting : t.routers 0 = .posting run target)
    (hcomment : run.comment cfg.unicode = .ok (some comment)) (hrepo : comment.repo = .str repo) :
    ∃ s credential,
      (deployments (cfg.setup createdAt home) ledger tenants).exec
        [.lookup (.router 0) friendly, .post (.router 0) friendly .raised 0]
        { Deployment.initial ledger tenants with reviews := t } = some s ∧
      (∀ e ∈ t.events, e ∈ s.reviews.events) ∧
      .posted ⟨.router 0, .decision, comment, credential⟩ ∈ s.trace := by
  let setup := cfg.setup createdAt home
  let p := home (.router 0)
  let d : Due := ⟨.decision, comment, false⟩
  let looked : Deployment := { Deployment.initial ledger tenants with
    reviews := t
    caches := Function.update (fun _ => .new) p
      (AppAuth.new.keepRepo (cfg.unicode.lower repo) (some 5) repoCacheTime)
    looked := Function.update (fun _ => none) (.router 0) (some (repo, .ok (some 5)))
    trace := [.answered p repo (some 5)] }
  have hdue (s : Deployment) (hs : s.reviews = t) : s.due cfg.unicode (.router 0) = some d := by
    simp only [Deployment.due, Deployment.routerDue, hs, hposting, RouterPc.call, hcomment,
      Option.map_some, d]
  have hlookup : Deployment.step setup { Deployment.initial ledger tenants with reviews := t }
      (.lookup (.router 0) friendly) = some looked := by
    simp only [Deployment.step]
    rw [show setup.cfg.unicode = cfg.unicode from rfl, hdue _ rfl]
    simp only [Option.bind_eq_bind, Option.bind_some, d, hrepo]
    rfl
  have hsend : ∃ credential auth, looked.send setup (.router 0) friendly .raised 0 d =
      some (.answered posted, some credential, auth) := by
    have hfound : (looked.looked (.router 0)).filter (·.1 = repo) =
        some (repo, .ok (some 5)) := by
      simp only [looked, Function.update_self, Option.filter_some, decide_true, ↓reduceIte]
    simp only [Deployment.send, d, Bool.false_eq_true, ↓reduceIte, hrepo, hfound]
    rw [show setup.writer = .ok .tenant from hwriter]
    simp only [show setup.cfg.writesNothing = false from hwrites, Bool.false_eq_true, ↓reduceIte]
    have hfresh : (looked.caches p).tokens 5 = none := by
      simp only [looked, Function.update_self]
      rfl
    obtain ⟨token, auth, htenant⟩ := tenantSend_friendly comment hwrites hfresh
    rw [show setup.home (.router 0) = p from rfl,
      show setup.cfg.toClientSettings = cfg.toClientSettings from rfl, htenant]
    exact ⟨_, _, rfl⟩
  obtain ⟨credential, auth, hsend⟩ := hsend
  have htake : ∃ v, looked.take setup.cfg.toSettings (.answered posted) (.router 0) = some v ∧
      ∀ e ∈ t.events, e ∈ v.reviews.events := by
    have hanswer : answering looked.reviews (.answered posted) (.router 0) =
        .router 0 (.post (.answered posted)) := by
      simp only [answering, looked, hposting]
    have hposted : routerStep setup.cfg.toSettings t.rows t.nextId 0 (t.routers 0)
        (.post (.answered posted)) = some {
          pc := afterPost run target (.answered posted)
          events := [.posted (.router 0) (target.map (·.1)) comment true] } := by
      have hsame : RouterRun.comment setup.cfg.unicode run = .ok (some comment) := hcomment
      rw [hposting]
      simp only [routerStep, hsame]
      rfl
    refine ⟨{ looked with reviews := t.applyRouter 0 {
        pc := afterPost run target (.answered posted)
        events := [.posted (.router 0) (target.map (·.1)) comment true] } }, ?_, ?_⟩
    · simp only [Deployment.take]
      rw [hanswer]
      simp only [Routing.step]
      rw [show looked.reviews = t from rfl, hposted, Option.map_some, Option.map_some]
    · intro e he
      exact List.mem_cons_of_mem _ he
  obtain ⟨v, hv, hevents⟩ := htake
  let sent : Deployment := { v with
    caches := Function.update v.caches p auth
    looked := Function.update v.looked (.router 0) none
    trace := .posted ⟨.router 0, .decision, comment, credential⟩ :: v.trace }
  have hpost : Deployment.step setup looked (.post (.router 0) friendly .raised 0) =
      some sent := by
    simp only [Deployment.step]
    rw [show setup.cfg.unicode = cfg.unicode from rfl, hdue looked rfl]
    simp only [Option.bind_eq_bind, Option.bind_some, hsend, hv]
    rfl
  refine ⟨sent, credential, ?_, hevents, List.mem_cons_self⟩
  have hfirst : (deployments setup ledger tenants).step
      { Deployment.initial ledger tenants with reviews := t } (.lookup (.router 0) friendly) =
    some looked := hlookup
  have hsecond : (deployments setup ledger tenants).step looked
      (.post (.router 0) friendly .raised 0) = some sent := hpost
  rw [System.exec, hfirst, Option.bind_some, System.exec, hsecond]
  rfl

theorem auto_posts {cfg : AppSettings} {state : PRState} {decision : RoutingDecision}
    {repo sha : String} {n : Int} (hroute : route cfg.toSettings state = .ok decision)
    (haction : decision.action = .commentReview) (hauto : decision.requiresApproval = false)
    (hrepo : state.repo = some (.str repo)) (hnumber : state.prNumber = some (.int n))
    (hsha : state.commitSha = some (.str sha))
    (hwriter : getGithubClient cfg = .ok .tenant) (hwrites : cfg.writesNothing = false) :
    ∃ s comment credential,
      (deployments (cfg.setup (fun _ => 0) (fun _ => 0)) .empty .empty).Reachable anyStep s ∧
      .started 0 state true ∈ s.reviews.events ∧
      .posted ⟨.router 0, .decision, comment, credential⟩ ∈ s.trace := by
  obtain ⟨t, row, hexec, hposting, hstarted⟩ :=
    auto_posting hroute haction hauto hrepo hnumber hsha
  have hcomment : RouterRun.comment cfg.unicode ⟨state, decision⟩ =
      .ok (some ⟨.str repo, n, decision.body⟩) := by
    unfold RouterRun.comment executeDecision
    rw [haction, hrepo, hnumber]
    rfl
  obtain ⟨s, credential, hlast, hevents, hposted⟩ :=
    @tenant_post cfg (fun _ => 0) (fun _ => 0) .empty .empty _ _ _ _ _ hwriter hwrites hposting
      hcomment rfl
  have hfirst : (deployments (cfg.setup (fun _ => 0) (fun _ => 0)) .empty .empty).exec
      ((routerRun 0 [.start state true, .select, .insert]).map .own)
      (.initial .empty .empty) = some { Deployment.initial .empty .empty with reviews := t } := by
    apply @own_exec (cfg.setup (fun _ => 0) (fun _ => 0)) .empty .empty _
      (.initial .empty .empty) t _ hexec
    intro a ha s
    simp only [routerRun, List.map_cons, List.map_nil, List.mem_cons, List.not_mem_nil,
      or_false] at ha
    rcases ha with rfl | rfl | rfl <;> simp only [Deployment.quiet, needsClient, Bool.not_false]
  refine ⟨s, _, credential, ?_, hevents _ hstarted, hposted⟩
  refine Reachable.run (Run.of_exec hfirst (System.Admits.any _ _)) ?_
  exact Run.of_exec hlast (System.Admits.any _ _)

theorem posts_nothing {cfg : AppSettings} {maxFix : Int} {loads : String → Loaded}
    {job : Jobs.PRJob} {listing : List ListedFile} (hjob : isCiJob job = false)
    (hloads : loads trivialReview = .value (.dict [("risk_score", .str "trivial")]))
    (htoken : cfg.githubToken = "") (hhandoff : cfg.handoffMode = false)
    (hdry : cfg.githubDryRun = false) (happ : getAppAuth cfg.toWebhookSettings = .ok true) :
    PostsReview cfg (cfg.pipeline maxFix loads) job listing [] := by
  have hwrites : cfg.writesNothing = false := by
    unfold ClientSettings.writesNothing
    rw [hhandoff, hdry]
    rfl
  have hwriter : getGithubClient cfg = .ok .tenant := by
    unfold getGithubClient
    rw [hhandoff, hdry, happ, ← getAppAuth_multiTenant happ]
    rfl
  have hreader : getGithubReader cfg = .fake := by
    unfold getGithubReader
    rw [htoken, hhandoff]
    rfl
  obtain ⟨decision, hroute, haction, hauto⟩ := @trivial_route cfg.toSettings job hhandoff
  obtain ⟨s, comment, credential, hreach, hstarted, hposted⟩ :=
    auto_posts hroute haction hauto rfl rfl rfl hwriter hwrites
  obtain ⟨hdue, hstate⟩ := @trivial_walk (cfg.pipeline maxFix loads) job [] hjob hloads
  refine .run (fun _ => false) [] trivialAnswers 2 _ _ _ _ s 0 comment credential ?_ hdue hreach ?_
    hposted
  · rw [hreader]
    rfl
  · rw [hstate]
    exact hstarted

/-- Every posted review is one of the files that GitHub lists, unless an App writes without a token
of the operator, or there is nothing to list. -/
theorem live_review_iff (cfg : AppSettings) (maxFix : Int) (loads : String → Loaded)
    (job : Jobs.PRJob) (listing : List ListedFile) (hjob : isCiJob job = false)
    (hloads : loads trivialReview = .value (.dict [("risk_score", .str "trivial")])) :
    (∀ files, PostsReview cfg (cfg.pipeline maxFix loads) job listing files →
      files = listing.map ListedFile.changed) ↔
    cfg.githubToken ≠ "" ∨ cfg.handoffMode = true ∨ cfg.githubDryRun = true ∨
      getAppAuth cfg.toWebhookSettings ≠ .ok true ∨ listing = [] := by
  constructor
  · intro h
    by_contra hcond
    simp only [not_or, not_not, Bool.not_eq_true] at hcond
    obtain ⟨htoken, hhandoff, hdry, happ, hlisting⟩ := hcond
    have hempty := h [] (posts_nothing hjob hloads htoken hhandoff hdry happ)
    exact hlisting (List.map_eq_nil_iff.mp hempty.symm)
  · intro hcond files hposts
    cases hposts with
    | run fails snapshot answers k createdAt home ledger tenants s r comment credential hread hdue
        hreach hstarted hposted =>
      obtain ⟨hwrites, hcredential⟩ := router_writer hreach hposted
      cases hreader : getGithubReader cfg with
      | http token =>
        rw [hreader] at hread
        exact listPullFiles_http hread
      | fake =>
        obtain ⟨htoken, hhandoff⟩ := getGithubReader_fake hreader
        have hdry : cfg.githubDryRun = false := by
          unfold ClientSettings.writesNothing at hwrites
          rw [hhandoff, Bool.false_or] at hwrites
          exact hwrites
        have happ := hcredential.resolve_left (not_not.mpr htoken)
        rw [hreader] at hread
        simp only [htoken, hhandoff, hdry, happ, ne_eq, not_true_eq_false, Bool.false_eq_true,
          false_or] at hcond
        rw [hcond]
        exact (Option.some.inj hread).symm

/-- A pull request with one changed file. -/
def pulledJob : Jobs.PRJob := { failedJob with event := "pull_request" }

def oneFile : List ListedFile := [⟨"a.py", some "@@ -1 +1 @@"⟩]

def loadsTrivial (text : String) : Loaded :=
  if text = trivialReview then .value (.dict [("risk_score", .str "trivial")]) else .decodeError

/-- With a token no review is one of an empty list. -/
theorem live_review_iff_token :
    AppSettings.live.githubToken ≠ "" ∧
      ¬ PostsReview .live (AppSettings.live.pipeline 2 loadsTrivial) pulledJob oneFile [] := by
  have hcond : AppSettings.live.githubToken ≠ "" := by decide
  refine ⟨hcond, fun hposts => ?_⟩
  have hfiles := (live_review_iff .live 2 loadsTrivial pulledJob oneFile rfl rfl).mpr (.inl hcond) []
    hposts
  cases hfiles

/-- The App of `AppSettings.live`, without the token. -/
def AppSettings.appOnly : AppSettings := { AppSettings.live with githubToken := "" }

theorem app_reviews_nothing :
    PostsReview .appOnly (AppSettings.appOnly.pipeline 2 loadsTrivial) pulledJob oneFile [] ∧
      oneFile.map ListedFile.changed ≠ [] := by
  constructor
  · apply posts_nothing rfl rfl rfl rfl rfl
    decide
  · decide

end AutoPR.Clients
