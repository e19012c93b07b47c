import AutoPR.Commands.Authorization
import AutoPR.Webhook.Admission

/-! Which requests start work. Nothing but `ingest` writes a job or the stream, and a request
comes there only through every check; what refuses one leaves them as they were. -/
namespace AutoPR.Webhook
open Python Jobs Tenancy Commands Relational

section
variable {u : Unicode} {plat : Platform} {cfg : WebhookSettings} {req : Request}

theorem readChunks_eq {limit : Int} {total : Nat} {chunks : List Bytes} {raw : Bytes}
    (h : readChunks limit total chunks = some raw) : raw = chunks.flatten := by
  induction chunks generalizing total raw with
  | nil =>
    cases h
    rfl
  | cons chunk rest ih =>
    unfold readChunks at h
    split at h
    · cases h
    · obtain ⟨tail, htail, rfl⟩ := Option.map_eq_some_iff.mp h
      rw [List.flatten_cons, ih htail]

theorem readBody_eq {limit : Int} {raw : Bytes}
    (h : readBodyWithLimit u limit req = .ok (some raw)) : raw = req.chunks.flatten := by
  unfold readBodyWithLimit at h
  dsimp only at h
  split at h
  · obtain ⟨n, -, h⟩ := ok_of_bind h
    split at h
    · cases h
    · exact readChunks_eq (Except.ok.inj h)
  · exact readChunks_eq (Except.ok.inj h)

theorem verifySignature_eq {secret : String} {body : Bytes} {header : Option String}
    (h : verifySignature plat secret body header = .ok true) :
    header = some (signaturePrefix ++ plat.hmacSha256 secret body) := by
  unfold verifySignature at h
  split at h
  · cases h
  · split at h
    · cases h
    · split at h
      · rw [of_decide_eq_true (Except.ok.inj h)]
      · cases h

theorem liftPy_ok {α : Type} {x : Py α} {a : α} (h : liftPy x = .ok a) : x = .ok a := by
  cases x with
  | ok b =>
    cases h
    rfl
  | error e => cases h

structure Signed (plat : Platform) (cfg : WebhookSettings) (req : Request) (payload : PyVal) :
    Prop where
  signature : req.signature =
    some (signaturePrefix ++ plat.hmacSha256 cfg.webhookSecret req.chunks.flatten)
  loads : plat.loads (if req.chunks.flatten = [] then "{}".toUTF8.toList else req.chunks.flatten) =
    .value payload

theorem authenticate_ok {payload : PyVal} (h : authenticate plat cfg req = .ok (.ok payload)) :
    Signed plat cfg req payload := by
  unfold authenticate at h
  simp only [bind, Except.bind, pure, Except.pure] at h
  split at h
  · cases h
  split at h
  · cases h
  split at h
  · cases h
  rename_i raw? hraw
  split at h
  · cases h
  rename_i raw
  split at h
  · cases h
  rename_i signed hsigned
  split at h
  · cases h
  rename_i hverified
  obtain rfl := readBody_eq (liftPy_ok hraw)
  obtain rfl : signed = true := by simpa using hverified
  refine ⟨verifySignature_eq (liftPy_ok hsigned), ?_⟩
  split at h
  · rename_i v hv
    cases h
    exact hv
  · cases h
  · cases h

end

structure Frame (s t : Server) : Prop where
  jobs : t.jobs = s.jobs
  decisions : t.decisions = s.decisions

section
variable {plat : Platform} {cfg : WebhookSettings} {w : Nat → Moment} {ledger : Routing.Ledger}
  {createdAt : Routing.DecisionId → Time} {req : Request} {payload : PyVal} {s t : Server}
  {c : Candidate} {u : Unicode}

theorem Frame.refl (s : Server) : Frame s s := ⟨rfl, rfl⟩

theorem Frame.trans (s t v : Server) (h : Frame s t) (h' : Frame t v) : Frame s v :=
  ⟨h'.jobs.trans h.jobs, h'.decisions.trans h.decisions⟩

theorem orEscape_frame {α : Type} (x : Py α) : Keeps Frame (orEscape x) := by
  cases x with
  | ok a => exact Keeps.pure Frame.refl a
  | error e => exact Keeps.throw Frame.refl _

theorem tenancyReply_frame (run : Installations → Installations × Py EventStatus) :
    Keeps Frame (tenancyReply run) := by
  intro s
  unfold final tenancyReply
  split <;> rename_i heq <;> split at heq <;> cases heq <;> exact ⟨rfl, rfl⟩

theorem installationEvent_frame : Keeps Frame (installationEvent u payload) := by
  refine Keeps.bind Frame.trans (orEscape_frame _) fun action => ?_
  exact Keeps.bind Frame.trans (fun s => Frame.refl s) fun now => tenancyReply_frame _

theorem installationRepositoriesEvent_frame :
    Keeps Frame (installationRepositoriesEvent u payload) :=
  Keeps.bind Frame.trans (orEscape_frame _) fun _ => tenancyReply_frame _

theorem sendReply_replied {w : Nat → Moment} {client : Client} {repo body : String} {n : Int}
    {r : CommentResult} {s t : Desk} (h : sendReply w client repo n body s = .ok r t) :
    ∃ url, r = .replied url := by
  obtain ⟨result, u, -, hpure⟩ := bind_ok h
  cases hpure
  exact ⟨result.url, rfl⟩

theorem execute_settled {cfg : CommandSettings} {w : Nat → Moment} {client : Client}
    {d : Routing.DecisionId} {repo actor reason : String} {n : Int}
    {claimed : Routing.ReviewDecision} {s t : Desk} :
    execute cfg w client d repo n actor claimed s ≠ .ok (.ignored reason) t := by
  intro h
  obtain ⟨result, u, -, hsettle⟩ := bind_ok h
  unfold settle at hsettle
  split at hsettle
  · obtain ⟨_, v, -, hpure⟩ := bind_ok hsettle
    cases hpure
  · obtain ⟨_, v, -, hrest⟩ := bind_ok hsettle
    obtain ⟨_, v', -, hpure⟩ := bind_ok hrest
    cases hpure

theorem approve_ignored {cfg : CommandSettings} {w : Nat → Moment} {client : Client}
    {d : Routing.DecisionId} {repo actor reason : String} {n : Int} {s t : Desk}
    {row : Routing.ReviewDecision} (hrow : s.rows d = some row) :
    approve cfg w client d repo n actor s ≠ .ok (.ignored reason) t := by
  intro h
  cases hopen : row.status.takeable with
  | true =>
    unfold approve at h
    rw [bind_of_ok (claimApproval_open hrow hopen)] at h
    exact execute_settled h
  | false =>
    unfold approve at h
    rw [bind_of_ok (claimApproval_closed hrow hopen)] at h
    cases hst : row.status with
    | executed | rejected | approved =>
      rw [hst] at h
      obtain ⟨url, hreplied⟩ := sendReply_replied h
      cases hreplied
    | pending | failed =>
      rw [hst] at hopen
      cases hopen

theorem reject_ignored {w : Nat → Moment} {client : Client} {d : Routing.DecisionId}
    {repo actor reason : String} {n : Int} {s t : Desk} {row : Routing.ReviewDecision}
    (hrow : s.rows d = some row) : reject w client d repo n actor s ≠ .ok (.ignored reason) t := by
  intro h
  unfold reject at h
  by_cases hopen : row.status = .pending
  · rw [bind_of_ok (rejectPending_open hrow hopen)] at h
    cases h
  · rw [bind_of_ok (rejectPending_closed hrow hopen)] at h
    by_cases hexec : row.status = .executed
    · rw [if_pos hexec] at h
      obtain ⟨url, hreplied⟩ := sendReply_replied h
      cases hreplied
    · rw [if_neg hexec] at h
      obtain ⟨url, hreplied⟩ := sendReply_replied h
      cases hreplied

theorem obey_answered {cfg : CommandSettings} {w : Nat → Moment} {db : Database} {c : Cleared}
    {reason : String} {s t : Desk} : obey cfg w db c s ≠ .ok (.ignored reason) t := by
  intro h
  unfold obey at h
  obtain ⟨n, s₁, -, h₁⟩ := bind_ok h
  have hreply : ∀ body, sendReply w c.client c.request.repo n body s₁ = .ok (.ignored reason) t →
      False := by
    intro body hsend
    obtain ⟨url, hreplied⟩ := sendReply_replied hsend
    cases hreplied
  split at h₁
  · exact hreply _ h₁
  split at h₁
  · rw [get_bind] at h₁
    exact hreply _ h₁
  cases hdecision : c.request.command.decisionId with
  | none =>
    rw [hdecision] at h₁
    exact hreply _ h₁
  | some d =>
    rw [hdecision] at h₁
    obtain ⟨found, s₂, hfound, h₂⟩ := bind_ok h₁
    cases hfound
    cases hrow : (s₁.rows d).filter (Routing.addressable cfg.unicode c.request.repo c.installation) with
    | none =>
      rw [hrow] at h₂
      exact hreply _ h₂
    | some row =>
      obtain ⟨hstored, -⟩ := Option.filter_eq_some_iff.mp hrow
      rw [hrow] at h₂
      dsimp only at h₂
      split at h₂
      · exact reject_ignored hstored h₂
      · exact approve_ignored hstored h₂

theorem handle_ignored {cfg : CommandSettings} {w : Nat → Moment} {db : Database}
    {configured : Bool} {payload : PyVal} {reason : String} {s t : Desk}
    (h : handleIssueComment cfg w db configured payload s = .ok (.ignored reason) t) :
    t.rows = s.rows := by
  unfold handleIssueComment at h
  obtain ⟨found, v, hclear, hrest⟩ := bind_ok h
  have hsilent : Silent s (final (clear cfg w db configured payload) s) := clear_silent s
  unfold final at hsilent
  rw [hclear] at hsilent
  cases found with
  | error result =>
    cases hrest
    exact hsilent.rows
  | ok c => exact absurd hrest obey_answered

theorem issueComment_frame :
    (final (issueComment cfg w ledger createdAt payload) s).jobs = s.jobs ∧
    ∀ reply, issueComment cfg w ledger createdAt payload s = .ok reply t →
      reply.refuses = true → Frame s t := by
  unfold final issueComment
  cases getAppAuth cfg with
  | error e => exact ⟨rfl, fun reply h => by cases h⟩
  | ok configured =>
    dsimp only
    cases hrun : handleIssueComment cfg.toCommandSettings w (s.database ledger createdAt) configured
        payload s.desk with
    | error e desk => exact ⟨rfl, fun reply h => by cases h⟩
    | ok result desk =>
      cases repositoryName payload with
      | error e => exact ⟨rfl, fun reply h => by cases h⟩
      | ok name =>
        refine ⟨rfl, fun reply h hrefuses => ?_⟩
        cases h
        cases result with
        | ignored reason => exact ⟨rfl, handle_ignored hrun⟩
        | _ => cases hrefuses

theorem enrol_frame (i : Int) : Keeps Frame (enrol u payload i) := by
  intro s
  unfold final enrol
  split <;> rename_i heq <;> split at heq
  · cases heq
  · split at heq <;> cases heq
    exact ⟨rfl, rfl⟩
  · cases heq
    exact Frame.refl s
  · split at heq <;> cases heq
    exact ⟨rfl, rfl⟩

theorem enrol_active {i : Int} (h : enrol u payload i s = .ok true t) :
    (t.tenants.getActive i).isSome = true := by
  unfold enrol at h
  split at h
  · cases h
  · split at h
    · cases h
    · simp only [EStateM.Result.ok.injEq] at h
      obtain ⟨hactive, rfl⟩ := h
      exact hactive

theorem tenantAdmits_frame : Keeps Frame (tenantAdmits cfg payload c) := by
  unfold tenantAdmits
  split
  · exact Keeps.ite (enrol_frame _) (Keeps.pure Frame.refl _)
  · exact Keeps.pure Frame.refl _

theorem tenantAdmits_active (h : tenantAdmits cfg payload c s = .ok true t)
    (hmulti : cfg.multiTenantEnabled = true) {i : Int} (hi : c.installationId = some i) :
    (t.tenants.getActive i).isSome = true := by
  unfold tenantAdmits at h
  rw [hi] at h
  dsimp only at h
  rw [if_pos hmulti] at h
  exact enrol_active h

def Same (s t : Server) : Prop := t = s

theorem Same.refl (s : Server) : Same s s := rfl

theorem Same.trans (s t v : Server) (h : Same s t) (h' : Same t v) : Same s v := Eq.trans h' h

theorem quotaCheck_same (quotas : QuotaSettings) :
    Keeps Same (quotaCheck plat quotas c) := by
  intro s
  unfold final quotaCheck
  split <;> rename_i heq <;> split at heq
  · cases heq
    rfl
  · split at heq <;> cases heq
    rfl
  · cases heq
  · split at heq <;> cases heq
    rfl

theorem quotaAdmits_same : Keeps Same (quotaAdmits plat cfg c) := by
  refine Keeps.bind Same.trans (fun s => Same.refl s) fun _ => ?_
  exact Keeps.ite (Keeps.pure Same.refl _) (quotaCheck_same _)

theorem quotaAdmits_frame : Keeps Frame (quotaAdmits plat cfg c) := by
  intro s
  have hsame : final (quotaAdmits plat cfg c) s = s := quotaAdmits_same s
  rw [hsame]
  exact Frame.refl s

/-- The job is there, or there is room for it under every quota that is on. -/
def Room (plat : Platform) (cfg : WebhookSettings) (c : Candidate) (s : Server) : Prop :=
  dedupExists s.jobs.jobs s.jobs.nextId (c.dedupKey cfg.unicode cfg.jobs.sha256) = true ∨
    ∀ repo, plat.bindText c.repo = some repo → ∀ quota ∈ cfg.quotas.checks c.installationId,
      quota.exhausted cfg.quotas s.jobs.jobs s.jobs.nextId s.jobs.now repo c.installationId = false

theorem quotaAdmits_room (h : quotaAdmits plat cfg c s = .ok none t) : Room plat cfg c s := by
  unfold quotaAdmits at h
  rw [get_bind] at h
  split at h
  · rename_i hexists
    exact .inl hexists
  · right
    intro repo hrepo quota hquota
    unfold quotaCheck at h
    rw [hrepo] at h
    simp only [EStateM.Result.ok.injEq] at h
    simpa using List.find?_eq_none.mp h.1 quota hquota

theorem orEscape_ok {α : Type} {x : Py α} {a : α} (h : orEscape x s = .ok a t) :
    x = .ok a ∧ t = s := by
  cases x with
  | ok b =>
    cases h
    exact ⟨rfl, rfl⟩
  | error e => cases h

theorem admission_frame : Keeps Frame (admission plat cfg payload c) := by
  refine Keeps.bind Frame.trans tenantAdmits_frame fun active => ?_
  refine Keeps.ite (Keeps.pure Frame.refl _) ?_
  refine Keeps.bind Frame.trans (orEscape_frame _) fun allowed => ?_
  refine Keeps.ite (Keeps.pure Frame.refl _) ?_
  exact Keeps.bind Frame.trans quotaAdmits_frame fun _ => Keeps.pure Frame.refl _

def Allowed (cfg : WebhookSettings) (repo : PyVal) : Prop :=
  allowedRepoSet cfg.unicode cfg.allowedRepos = [] ∨ ∃ name, repo = .str name ∧
    cfg.unicode.lower (strip name) ∈ allowedRepoSet cfg.unicode cfg.allowedRepos

theorem repoIsAllowed_ok {repo : PyVal}
    (h : repoIsAllowed cfg.unicode cfg.allowedRepos repo = .ok true) : Allowed cfg repo := by
  unfold repoIsAllowed at h
  split at h
  · rename_i hempty
    exact .inl hempty
  · obtain ⟨name, hname, hmem⟩ := ok_of_bind h
    cases repo with
    | str text =>
      cases hname
      exact .inr ⟨text, rfl, of_decide_eq_true (Except.ok.inj hmem)⟩
    | _ => cases hname

/-- What has been checked when `admission` lets a candidate through. -/
structure Cleared (plat : Platform) (cfg : WebhookSettings) (c : Candidate) (s t : Server) :
    Prop where
  active : cfg.multiTenantEnabled = true → ∀ i, c.installationId = some i →
    (t.tenants.getActive i).isSome = true
  allowed : Allowed cfg c.repo
  room : Room plat cfg c s

theorem admission_cleared (h : admission plat cfg payload c s = .ok none t) :
    Cleared plat cfg c s t ∧ Frame s t := by
  unfold admission at h
  obtain ⟨active, s₁, hactive, h₁⟩ := bind_ok h
  split at h₁
  · cases h₁
  rename_i hadmitted
  obtain rfl : active = true := by simpa using hadmitted
  obtain ⟨allowed, s₂, hallowed, h₂⟩ := bind_ok h₁
  obtain ⟨hlisted, rfl⟩ := orEscape_ok hallowed
  split at h₂
  · cases h₂
  rename_i hpassed
  obtain rfl : allowed = true := by simpa using hpassed
  obtain ⟨quota, s₃, hquota, h₃⟩ := bind_ok h₂
  simp only [pure, EStateM.pure, EStateM.Result.ok.injEq, Option.map_eq_none_iff] at h₃
  obtain ⟨rfl, rfl⟩ := h₃
  have hfirst : Frame s (final (tenantAdmits cfg payload c) s) := tenantAdmits_frame s
  have hlast : final (quotaAdmits plat cfg c) s₂ = s₂ := quotaAdmits_same s₂
  unfold final at hfirst hlast
  rw [hactive] at hfirst
  rw [hquota] at hlast
  obtain rfl : s₃ = s₂ := hlast
  refine ⟨⟨fun hmulti i hi => tenantAdmits_active hactive hmulti hi, repoIsAllowed_ok hlisted, ?_⟩,
    hfirst⟩
  have hroom := quotaAdmits_room hquota
  unfold Room at hroom ⊢
  rwa [hfirst.jobs] at hroom

/-- The checks that a request has passed when it has changed a job or the stream. -/
structure Admitted (plat : Platform) (cfg : WebhookSettings) (req : Request) (s t : Server)
    (c : Candidate) : Prop where
  signed : ∃ payload, Signed plat cfg req payload ∧
    parseEvent cfg.unicode req.eventName payload = .ok (some c)
  cleared : Cleared plat cfg c s t
  /-- Only the row with the payload's key, and only its message. -/
  only : OnlyJob (c.dedupKey cfg.unicode cfg.jobs.sha256) s.jobs t.jobs
  decisions : t.decisions = s.decisions

theorem ingestCandidate_only :
    OnlyJob (c.dedupKey cfg.unicode cfg.jobs.sha256) s.jobs
        (final (ingestCandidate plat cfg req c) s).jobs ∧
      (final (ingestCandidate plat cfg req c) s).tenants = s.tenants ∧
      (final (ingestCandidate plat cfg req c) s).decisions = s.decisions := by
  unfold final ingestCandidate
  cases plat.bindText c.repo with
  | none => exact ⟨.refl _ _, rfl, rfl⟩
  | some repo =>
    dsimp only
    cases ingestReply (ingest cfg.jobs s.jobs (c.dedupKey cfg.unicode cfg.jobs.sha256)
      (c.payload repo) req.correlationId req.xadd).2 with
    | ok reply => exact ⟨ingest_only, rfl, rfl⟩
    | error e => exact ⟨ingest_only, rfl, rfl⟩

theorem ingestCandidate_accepts {reply : Reply}
    (h : ingestCandidate plat cfg req c s = .ok reply t) : reply.refuses = false := by
  unfold ingestCandidate at h
  split at h
  · cases h
  · dsimp only at h
    split at h
    · rename_i answer hanswer
      cases h
      unfold ingestReply at hanswer
      split at hanswer
      · cases hanswer
        split <;> rfl
      · cases hanswer
        rfl
      · cases hanswer
    · cases h

theorem jobEvent_cases (hsigned : Signed plat cfg req payload) :
    (Frame s (final (jobEvent plat cfg req payload) s) ∨
      ∃ c, Admitted plat cfg req s (final (jobEvent plat cfg req payload) s) c) ∧
    ∀ reply, jobEvent plat cfg req payload s = .ok reply t → reply.refuses = true → Frame s t := by
  unfold jobEvent
  cases hparse : parseEvent cfg.unicode req.eventName payload with
  | error e => exact ⟨.inl (Frame.refl s), fun reply h => by cases h⟩
  | ok found =>
    have hread : orEscape (.ok found : Py (Option Candidate)) s = .ok found s := rfl
    rw [final_bind_ok hread, bind_of_ok hread]
    cases found with
    | none =>
      refine ⟨.inl (Frame.refl s), fun reply h _ => ?_⟩
      cases h
      exact Frame.refl s
    | some c =>
      dsimp only
      have hframe : Frame s (final (admission plat cfg payload c) s) := admission_frame s
      cases hadm : admission plat cfg payload c s with
      | error e u =>
        unfold final at hframe
        rw [hadm] at hframe
        rw [final_bind_error hadm, bind_of_error hadm]
        exact ⟨.inl hframe, fun reply h => by cases h⟩
      | ok answer u =>
        unfold final at hframe
        rw [hadm] at hframe
        rw [final_bind_ok hadm, bind_of_ok hadm]
        cases answer with
        | some reply =>
          refine ⟨.inl hframe, fun reply h _ => ?_⟩
          cases h
          exact hframe
        | none =>
          obtain ⟨hcleared, -⟩ := admission_cleared hadm
          obtain ⟨honly, htenants, hdecisions⟩ := @ingestCandidate_only plat cfg req u c
          refine ⟨.inr ⟨c, ⟨payload, hsigned, hparse⟩, ⟨?_, hcleared.allowed, hcleared.room⟩, ?_,
            hdecisions.trans hframe.decisions⟩, fun reply h hrefuses => ?_⟩
          · rw [htenants]
            exact hcleared.active
          · rwa [hframe.jobs] at honly
          · rw [ingestCandidate_accepts h] at hrefuses
            cases hrefuses

end

/-- The events that carry no work for the pipeline. -/
def workless : List String := ["installation", "installation_repositories", "issue_comment"]

/-- A request changes a job or the stream only when it is admitted, and never where it is
refused or carries no work. -/
structure Guarded (plat : Platform) (cfg : WebhookSettings) (req : Request) (s : Server)
    (serve : Serving Reply) : Prop where
  admitted : (final serve s).jobs = s.jobs ∨ ∃ c, Admitted plat cfg req s (final serve s) c
  refused : ∀ reply t, serve s = .ok reply t → reply.refuses = true → Frame s t
  workless : (∃ event ∈ workless, req.event = some event) → (final serve s).jobs = s.jobs

section
variable {plat : Platform} {cfg : WebhookSettings} {w : Nat → Moment} {ledger : Routing.Ledger}
  {createdAt : Routing.DecisionId → Time} {req : Request} {payload : PyVal} {s : Server}
  {serve : Serving Reply}

theorem Guarded.of_frame (h : Keeps Frame serve) : Guarded plat cfg req s serve := by
  have hs : Frame s (final serve s) := h s
  refine ⟨.inl hs.jobs, fun reply t hrun _ => ?_, fun _ => hs.jobs⟩
  unfold final at hs
  rwa [hrun] at hs

theorem dispatch_guarded (hsigned : Signed plat cfg req payload) :
    Guarded plat cfg req s (dispatch plat cfg w ledger createdAt req payload) := by
  unfold dispatch
  by_cases hinstallation : req.event = some "installation"
  · rw [if_pos hinstallation]
    exact .of_frame installationEvent_frame
  rw [if_neg hinstallation]
  by_cases hrepositories : req.event = some "installation_repositories"
  · rw [if_pos hrepositories]
    exact .of_frame installationRepositoriesEvent_frame
  rw [if_neg hrepositories]
  by_cases hcomment : req.event = some "issue_comment"
  · rw [if_pos hcomment]
    have hjobs := fun t => @issueComment_frame cfg w ledger createdAt payload s t
    exact ⟨.inl (hjobs s).1, fun reply t => (hjobs t).2 reply, fun _ => (hjobs s).1⟩
  · rw [if_neg hcomment]
    have hcases := fun t => @jobEvent_cases plat cfg req payload s t hsigned
    refine ⟨(hcases s).1.imp Frame.jobs id, fun reply t => (hcases t).2 reply, ?_⟩
    rintro ⟨event, hevent, heq⟩
    simp only [workless, List.mem_cons, List.not_mem_nil, or_false] at hevent
    obtain rfl | rfl | rfl := hevent
    · exact absurd heq hinstallation
    · exact absurd heq hrepositories
    · exact absurd heq hcomment

theorem webhook_guarded : Guarded plat cfg req s (webhook plat cfg w ledger createdAt req) := by
  cases hauth : authenticate plat cfg req with
  | error e =>
    have hrun : webhook plat cfg w ledger createdAt req = throw e := by
      unfold webhook
      rw [hauth]
      rfl
    rw [hrun]
    exact .of_frame (Keeps.throw Frame.refl e)
  | ok found =>
    cases found with
    | error reply =>
      have hrun : webhook plat cfg w ledger createdAt req = pure reply := by
        unfold webhook
        rw [hauth]
        rfl
      rw [hrun]
      exact .of_frame (Keeps.pure Frame.refl reply)
    | ok payload =>
      have hrun : webhook plat cfg w ledger createdAt req =
          dispatch plat cfg w ledger createdAt req payload := by
        unfold webhook
        rw [hauth]
      rw [hrun]
      exact dispatch_guarded (authenticate_ok hauth)

end

/-- What a request may change, and what has been checked of it before. -/
theorem webhook_admission (plat : Platform) (cfg : WebhookSettings) (w : Nat → Moment)
    (ledger : Routing.Ledger) (createdAt : Routing.DecisionId → Time) (req : Request) (s : Server) :
    ((final (webhook plat cfg w ledger createdAt req) s).jobs ≠ s.jobs →
      ∃ c, Admitted plat cfg req s (final (webhook plat cfg w ledger createdAt req) s) c) ∧
    (∀ reply t, webhook plat cfg w ledger createdAt req s = .ok reply t → reply.refuses = true →
      t.jobs = s.jobs ∧ t.decisions = s.decisions) ∧
    ((∃ event ∈ workless, req.event = some event) →
      (final (webhook plat cfg w ledger createdAt req) s).jobs = s.jobs) := by
  have h := @webhook_guarded plat cfg w ledger createdAt req s
  refine ⟨fun hne => h.admitted.resolve_left hne, fun reply t hrun hrefuses => ?_, h.workless⟩
  have hframe := h.refused reply t hrun hrefuses
  exact ⟨hframe.jobs, hframe.decisions⟩

def pullRequestPayload : PyVal :=
  .dict [
    ("action", .str "opened"),
    ("pull_request", .dict [
      ("number", .int 7), ("head", .dict [("sha", .str "c0ffee")]),
      ("user", .dict [("login", .str "dev")])]),
    ("repository", .dict [("full_name", .str "acme/api")])]

/-- One that signs with the secret itself and knows one body. -/
def Platform.small : Platform where
  hmacSha256 secret _ := secret
  loads body := if body = [1] then .value pullRequestPayload else .decodeError
  bindText
    | .str s => some s
    | _ => none
  bindText_str _ _ h := (Option.some.inj h).symm

def WebhookSettings.small : WebhookSettings :=
  { unicode := .ascii, jobs := .small, webhookSecret := "s3cret" }

def Server.fresh : Server := ⟨.empty, .initial, fun _ => none, .new⟩

def serveSmall (req : Request) : Except Escape Reply × Server :=
  let serve := webhook .small .small (fun _ => friendly) .empty (fun _ => 0) req
  (outcome serve .fresh, final serve .fresh)

def signedRequest : Request :=
  { chunks := [[1]], signature := some "sha256=s3cret", event := some "pull_request" }

example : (serveSmall signedRequest).2.jobs.nextId = 1 := by decide

example : (serveSmall { signedRequest with signature := some "sha256=other" }).2.jobs.nextId = 0 := by
  decide

end AutoPR.Webhook
