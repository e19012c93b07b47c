import AutoPR.Commands.Authorization
import AutoPR.Tenancy.Credentials

/-! Approval by the ops API beside approval by a comment. Both claim a row and mark what has
become of it; only the ops API looks at the hand-off switch in between. -/
namespace AutoPR.Commands
open Python UnitOfWork Routing Tenancy Relational

/-- A call of the ops client; `post` is what the client makes of a comment. -/
def opsSend (post : Comment → Posting) (d : DecisionId) (comment : Comment) :
    Handling ActionResult := fun desk =>
  let posting := post comment
  let desk := { desk with
    deeds := .posted d posting.token comment posting.outcome.ok :: desk.deeds }
  match posting.outcome with
  | .answered result => .ok result desk
  | .raised => .error .client desk

/-- `execute_decision` on the stored row, by some client's post. -/
def executeRow (u : Unicode) (send : Comment → Handling ActionResult)
    (claimed : ReviewDecision) : Handling ActionResult := do
  match ← orRaise (claimed.comment u) with
  | some comment => send comment
  | none => return noAction

def opsSettle (d : DecisionId) (claimed : ReviewDecision) (result : ActionResult) :
    Handling Outcome :=
  if result.ok then do
    store d (claimed.markExecuted claimed result.url)
    return .executed result.url
  else do
    store d (claimed.markFailed claimed result.detail)
    return .actionFailed result.detail

/-- `POST /reviews/{id}/approve`. -/
def approveReview (cfg : Settings) (post : Comment → Posting) (d : DecisionId) :
    Handling Outcome := do
  if cfg.publicMode then return .readOnly
  match ← claimApproval d with
  | (none, _) => return .notFound
  | (some _, .alreadyExecuted) => return .alreadyExecuted
  | (some _, .rejected) => return .wasRejected
  | (some _, .inProgress) => return .inProgress
  | (some claimed, _) =>
      if cfg.handoffMode then
        let url := prReviewUrl cfg claimed
        store d (claimed.markExecuted claimed url)
        return .handedOff url
      else
        let result ← executeRow cfg.unicode (opsSend post d) claimed
        opsSettle d claimed result

def verdict (row : ReviewDecision) : DecisionStatus × Option String × Option String :=
  (row.status, row.resultUrl, row.lastError)

/-- Two approvals of a row leave it alike, and have both posted its body or neither. -/
structure SameEnd (d : DecisionId) (s t : Desk) : Prop where
  row : (s.rows d).map verdict = (t.rows d).map verdict
  posted : s.posted d ↔ t.posted d

abbrev claimedRow (row : ReviewDecision) : ReviewDecision := { row with status := .approved }

def approvedRow (u : Unicode) (outcome : Comment → PostOutcome) (row : ReviewDecision) :
    ReviewDecision :=
  let claimed := claimedRow row
  match row.comment u with
  | .error _ => claimed
  | .ok none => claimed.mark claimed noAction
  | .ok (some comment) =>
      match outcome comment with
      | .answered result => claimed.mark claimed result
      | .raised => claimed

def PostsBody (u : Unicode) (row : ReviewDecision) : Prop :=
  ∃ comment, row.comment u = .ok (some comment)

structure Leaves (d : DecisionId) (row : ReviewDecision) (posts : Prop) (t : Desk) : Prop where
  row : t.rows d = some row
  posted : t.posted d ↔ posts

section
variable {α : Type} {u : Unicode} {cfg : CommandSettings} {w : Nat → Moment} {client : Client}
  {post : Comment → Posting} {d : DecisionId} {repo actor : String} {prNumber : Int} {s t : Desk}
  {row claimed : ReviewDecision} {outcome : Comment → PostOutcome}

def Posts (d : DecisionId) (comment : Comment) (outcome : PostOutcome) (x : Handling ActionResult)
    (s : Desk) : Prop :=
  ∃ credential, x s =
    let t := { s with deeds := .posted d credential comment outcome.ok :: s.deeds }
    match outcome with
    | .answered result => .ok result t
    | .raised => .error .client t

theorem opsSend_posts (comment : Comment) :
    Posts d comment (post comment).outcome (opsSend post d comment) s := ⟨_, rfl⟩

theorem send_posts (comment : Comment) :
    Posts d comment
      (client.postIssueComment (w (3 + s.deeds.countP Deed.isComment))
        (s.deeds.countP Deed.isComment) comment)
      (send w client comment (.posted d client.token comment)) s := ⟨_, rfl⟩

structure Marks (d : DecisionId) (claimed : ReviewDecision)
    (settle : ActionResult → Handling α) : Prop where
  row : ∀ result s, (final (settle result) s).rows d = some (claimed.mark claimed result)
  posted : ∀ result s, (final (settle result) s).posted d ↔ s.posted d

theorem store_posted (s : Desk) : (final (store d row) s).posted d ↔ s.posted d := by
  constructor
  · rintro ⟨credential, comment, ok, hmem⟩
    cases hmem with
    | tail _ hmem => exact ⟨credential, comment, ok, hmem⟩
  · rintro ⟨credential, comment, ok, hmem⟩
    exact ⟨credential, comment, ok, List.mem_cons_of_mem _ hmem⟩

theorem store_row (s : Desk) : (final (store d row) s).rows d = some row := Function.update_self ..

theorem opsSettle_marks : Marks d claimed (opsSettle d claimed) := by
  constructor
  · intro result s
    unfold opsSettle ReviewDecision.mark
    split
    · exact store_row s
    · exact store_row s
  · intro result s
    unfold opsSettle
    split
    · exact store_posted s
    · exact store_posted s

theorem settle_marks : Marks d claimed (settle w client d repo prNumber actor claimed) := by
  have hreply (detail : String) (s : Desk) :
      let reply := sendReply w client repo prNumber
        ("Could not execute `#" ++ toString d ++ "`: " ++ detail)
      (final (reply >>= fun _ => pure (CommentResult.actionFailed d detail)) s).rows = s.rows ∧
        ((final (reply >>= fun _ => pure (CommentResult.actionFailed d detail)) s).posted d ↔
          s.posted d) := by
    intro reply
    have hquiet : Quiet s
        (final (reply >>= fun _ => pure (CommentResult.actionFailed d detail)) s) :=
      Keeps.bind Quiet.trans sendReply_quiet (fun _ => Keeps.pure Quiet.refl _) s
    have hconfined : Confined d s
        (final (reply >>= fun _ => pure (CommentResult.actionFailed d detail)) s) :=
      Keeps.bind Confined.trans sendReply_confined (fun _ => Keeps.pure Confined.refl _) s
    refine ⟨hquiet.rows, ?_, ?_⟩
    · rintro ⟨credential, comment, ok, hmem⟩
      exact ⟨credential, comment, ok, hquiet.posted d credential comment ok hmem⟩
    · rintro ⟨credential, comment, ok, hmem⟩
      exact ⟨credential, comment, ok, hconfined.kept _ hmem⟩
  have hstore (new : ReviewDecision) (s : Desk) :
      store d new s = .ok () (final (store d new) s) := rfl
  constructor
  · intro result s
    unfold settle ReviewDecision.mark
    split
    · exact store_row s
    · rw [final_bind_ok (hstore _ s), (hreply result.detail _).1]
      exact store_row s
  · intro result s
    unfold settle
    split
    · exact store_posted s
    · rw [final_bind_ok (hstore _ s), (hreply result.detail _).2]
      exact store_posted s

theorem Leaves.of_marks {settle : ActionResult → Handling α} (hsettle : Marks d claimed settle)
    {result : ActionResult} {posts : Prop} (hposts : s.posted d ↔ posts) :
    Leaves d (claimed.mark claimed result) posts (final (settle result) s) where
  row := hsettle.row result s
  posted := (hsettle.posted result s).trans hposts

theorem execution_leaves {send : Comment → Handling ActionResult}
    {settle : ActionResult → Handling α} (hrow : s.rows d = some (claimedRow row))
    (hnew : ¬ s.posted d) (hsend : ∀ comment, Posts d comment (outcome comment) (send comment) s)
    (hsettle : Marks d (claimedRow row) settle) :
    Leaves d (approvedRow u outcome row) (PostsBody u row)
      (final (executeRow u send (claimedRow row) >>= settle) s) := by
  have hsame : (claimedRow row).comment u = row.comment u := rfl
  unfold approvedRow PostsBody executeRow
  rw [hsame]
  cases hcomment : row.comment u with
  | error e =>
    constructor
    · exact hrow
    · exact iff_of_false hnew (by simp)
  | ok made =>
    cases made with
    | none =>
      apply Leaves.of_marks hsettle
      exact iff_of_false hnew (by simp)
    | some comment =>
      obtain ⟨credential, hsent⟩ := hsend comment
      have hposted (ok : Bool) : ({ s with
          deeds := .posted d credential comment ok :: s.deeds } : Desk).posted d :=
        ⟨credential, comment, ok, List.mem_cons_self⟩
      have hbody : ∃ c, (Except.ok (some comment) : Py (Option Comment)) = .ok (some c) :=
        ⟨comment, rfl⟩
      change Leaves d _ _ (final (send comment >>= settle) s)
      dsimp only
      cases houtcome : outcome comment with
      | answered result =>
        rw [houtcome] at hsent
        rw [final_bind_ok hsent]
        apply Leaves.of_marks hsettle
        exact iff_of_true (hposted _) hbody
      | raised =>
        rw [houtcome] at hsent
        rw [final_bind_error hsent]
        constructor
        · exact hrow
        · exact iff_of_true (hposted _) hbody

theorem approve_leaves (hrow : s.rows d = some row) (hopen : row.status.takeable = true)
    (hnew : ¬ s.posted d) (hcalls : s.deeds.countP Deed.isComment = 0) :
    Leaves d (approvedRow cfg.unicode (client.postIssueComment (w 3) 0) row)
      (PostsBody cfg.unicode row) (final (approve cfg w client d repo prNumber actor) s) := by
  unfold approve
  rw [final_bind_ok (claimApproval_open hrow hopen)]
  dsimp only
  change Leaves d _ _ (final (executeRow cfg.unicode _ _ >>= _) _)
  refine execution_leaves ?_ ?_ ?_ settle_marks
  · exact store_row s
  · rw [store_posted]
    exact hnew
  · intro comment
    have hsent := @send_posts w client d (final (store d (claimedRow row)) s) comment
    have hcount : (final (store d (claimedRow row)) s).deeds.countP Deed.isComment = 0 := hcalls
    rw [hcount] at hsent
    exact hsent

theorem approveReview_leaves (hpublic : cfg.publicMode = false) (hhandoff : cfg.handoffMode = false)
    (hrow : s.rows d = some row) (hopen : row.status.takeable = true) (hnew : ¬ s.posted d) :
    Leaves d (approvedRow cfg.unicode (fun comment => (post comment).outcome) row)
      (PostsBody cfg.unicode row) (final (approveReview cfg.toSettings post d) s) := by
  unfold approveReview
  rw [hpublic, hhandoff]
  change Leaves d _ _ (final (claimApproval d >>= _) s)
  rw [final_bind_ok (claimApproval_open hrow hopen)]
  change Leaves d _ _ (final (executeRow _ _ _ >>= _) _)
  refine execution_leaves ?_ ?_ ?_ opsSettle_marks
  · exact store_row s
  · rw [store_posted]
    exact hnew
  · intro comment
    exact opsSend_posts comment

theorem approveReview_handed (hpublic : cfg.publicMode = false) (hhandoff : cfg.handoffMode = true)
    (hrow : s.rows d = some row) (hopen : row.status.takeable = true) (hnew : ¬ s.posted d) :
    Leaves d
      { row with
        status := .executed
        resultUrl := some (prReviewUrl cfg.toSettings row) }
      False (final (approveReview cfg.toSettings post d) s) := by
  let claimed := claimedRow row
  let url := prReviewUrl cfg.toSettings claimed
  have hmark : claimed.markExecuted claimed url =
      { row with status := .executed, resultUrl := some url } := by
    unfold ReviewDecision.markExecuted ReviewDecision.flush
    simp only [claimed, column_clean, column_fresh]
  have hfinal : final (approveReview cfg.toSettings post d) s =
      final (store d (claimed.markExecuted claimed url)) (final (store d claimed) s) := by
    unfold approveReview
    rw [hpublic, hhandoff]
    change final (claimApproval d >>= _) s = _
    rw [final_bind_ok (claimApproval_open hrow hopen)]
    rfl
  rw [hfinal, hmark]
  constructor
  · exact store_row _
  · rw [store_posted, store_posted]
    exact iff_of_false hnew not_false

theorem approveReview_closed (hpublic : cfg.publicMode = false) (hrow : s.rows d = some row)
    (hclosed : row.status.takeable = false) : final (approveReview cfg.toSettings post d) s = s := by
  unfold approveReview
  rw [hpublic]
  change final (claimApproval d >>= _) s = s
  rw [final_bind_ok (claimApproval_closed hrow hclosed)]
  cases hst : row.status with
  | executed | rejected | approved => rfl
  | pending | failed =>
    rw [hst] at hclosed
    cases hclosed

theorem approvedRow_congr {outcome' : Comment → PostOutcome}
    (h : ∀ comment, row.comment u = .ok (some comment) → outcome comment = outcome' comment) :
    approvedRow u outcome row = approvedRow u outcome' row := by
  unfold approvedRow
  cases hcomment : row.comment u with
  | error e => rfl
  | ok made =>
    cases made with
    | none => rfl
    | some comment => simp only [h comment hcomment]

theorem approvedRow_silent (hsilent : ¬ PostsBody u row) :
    (approvedRow u outcome row).status = .executed →
      (approvedRow u outcome row).resultUrl = some "" := by
  unfold approvedRow
  cases hcomment : row.comment u with
  | error e =>
    intro hstatus
    cases hstatus
  | ok made =>
    cases made with
    | none =>
      intro _
      exact column_fresh _ _
    | some comment => exact absurd ⟨comment, hcomment⟩ hsilent

theorem prReviewUrl_ne (cfg : Settings) (row : ReviewDecision) : prReviewUrl cfg row ≠ "" := by
  intro h
  unfold prReviewUrl at h
  have hfiles := (String.append_eq_empty_iff.mp h).2
  revert hfiles
  decide

theorem approvedRow_open
    (hopen : (approvedRow u outcome row).status.takeable = true) :
    PostsBody u row := by
  unfold approvedRow at hopen
  cases hcomment : row.comment u with
  | error e =>
    rw [hcomment] at hopen
    cases hopen
  | ok made =>
    cases made with
    | none =>
      rw [hcomment] at hopen
      cases hopen
    | some comment => exact ⟨comment, hcomment⟩

end

/-- An authorised comment asks for the approval of a row that its thread may address. -/
structure AsksApproval (u : Unicode) (rows : DecisionTable) (c : Cleared) (d : DecisionId)
    (row : ReviewDecision) : Prop where
  verb : c.request.command.verb = "approve"
  decision : c.request.command.decisionId = some d
  stored : rows d = some row
  address : addressable u c.request.repo c.installation row = true

section
variable {cfg : CommandSettings} {w : Nat → Moment} {db : Database} {configured : Bool}
  {payload : PyVal} {post : Comment → Posting} {s t : Desk} {c : Cleared} {d : DecisionId}
  {row : ReviewDecision}

theorem handle_approves (hclear : clear cfg w db configured payload s = .ok (.ok c) t)
    (hasks : AsksApproval cfg.unicode t.rows c d row) :
    final (handleIssueComment cfg w db configured payload) s =
      match c.request.prNumber.toInt cfg.unicode with
      | .ok n => final (approve cfg w c.client d c.request.repo n c.request.actor) t
      | .error _ => t := by
  unfold handleIssueComment
  rw [final_bind_ok hclear]
  change final (obey cfg w db c) t = _
  unfold obey
  cases hnumber : c.request.prNumber.toInt cfg.unicode with
  | error e => rfl
  | ok n =>
    have hrun : orRaise (.ok n : Py Int) t = .ok n t := rfl
    have hlook : decisionFor cfg.unicode d c.request.repo c.installation t = .ok (some row) t := by
      unfold decisionFor
      rw [hasks.stored, Option.filter_some, if_pos hasks.address]
    rw [final_bind_ok hrun, if_neg (by simp [hasks.verb]), if_neg (by simp [hasks.verb]),
      hasks.decision]
    dsimp only
    rw [final_bind_ok hlook]
    dsimp only
    rw [if_neg (by simp [hasks.verb])]

theorem SameEnd.of_leaves {posts : Prop} (hs : Leaves d row posts s) (ht : Leaves d row posts t) :
    SameEnd d s t where
  row := by rw [hs.row, ht.row]
  posted := hs.posted.trans ht.posted.symm

theorem Silent.fresh (h : Silent s t) (hs : s.deeds = []) :
    ¬ t.posted d ∧ t.deeds.countP Deed.isComment = 0 := by
  have hasked : ∀ e ∈ t.deeds, e.isAsked = true := by
    intro e he
    cases h.deeds e he with
    | inl hold =>
      rw [hs] at hold
      cases hold
    | inr hnew => exact hnew
  constructor
  · rintro ⟨credential, comment, ok, hmem⟩
    cases hasked _ hmem
  · rw [List.countP_eq_zero]
    intro e he
    have he := hasked e he
    cases e with
    | asked token repo login permission => exact Bool.false_ne_true
    | wrote | posted | replied => cases he

end

/-- A comment and the ops API approve alike exactly when the row cannot be taken anyway, or when
hand-off mode is off and the delivery names a pull request by a number. -/
theorem approvals_agree_iff (cfg : CommandSettings) (w : Nat → Moment) (db : Database)
    (configured : Bool) (payload : PyVal) (auth : AppAuth) (post : Comment → Posting) (c : Cleared)
    (t : Desk) (d : DecisionId) (row : ReviewDecision) (hpublic : cfg.publicMode = false)
    (hclear : clear cfg w db configured payload (db.desk auth) = .ok (.ok c) t)
    (hasks : AsksApproval cfg.unicode db.decisions.rows c d row)
    (hsame : ∀ comment, row.comment cfg.unicode = .ok (some comment) →
      (post comment).outcome = c.client.postIssueComment (w 3) 0 comment) :
    SameEnd d (final (handleIssueComment cfg w db configured payload) (db.desk auth))
        (final (approveReview cfg.toSettings post d) (db.desk auth)) ↔
      (row.status.takeable = true → cfg.handoffMode = false ∧
        ∃ n, c.request.prNumber.toInt cfg.unicode = .ok n) := by
  have hsilent : Silent (db.desk auth) t := by
    have hkeep := @clear_silent cfg w db configured payload (db.desk auth)
    unfold final at hkeep
    rw [hclear] at hkeep
    exact hkeep
  obtain ⟨hnew, hcalls⟩ := @Silent.fresh _ _ d hsilent rfl
  have hfresh : ¬ (db.desk auth).posted d := by
    rintro ⟨credential, comment, ok, hmem⟩
    cases hmem
  have hrow : (db.desk auth).rows d = some row := hasks.stored
  have hfound : t.rows d = some row := by
    rw [hsilent.rows]
    exact hrow
  rw [handle_approves hclear ⟨hasks.verb, hasks.decision, hfound, hasks.address⟩]
  cases hopen : row.status.takeable with
  | false =>
    rw [approveReview_closed hpublic hrow hopen]
    refine iff_of_true ?_ (by simp)
    have hquiet (n : Int) :
        Quiet t (final (approve cfg w c.client d c.request.repo n c.request.actor) t) :=
      approve_closed hfound hopen
    cases c.request.prNumber.toInt cfg.unicode with
    | error e => exact ⟨by rw [hfound, hrow], iff_of_false hnew hfresh⟩
    | ok n =>
      refine ⟨by rw [(hquiet n).rows, hfound, hrow], iff_of_false ?_ hfresh⟩
      rintro ⟨credential, comment, ok, hmem⟩
      exact hnew ⟨credential, comment, ok, (hquiet n).posted d credential comment ok hmem⟩
  | true =>
    rw [forall_prop_of_true rfl]
    cases hhandoff : cfg.handoffMode with
    | false =>
      have hops := @approveReview_leaves cfg post d _ row hpublic hhandoff hrow hopen hfresh
      cases hnumber : c.request.prNumber.toInt cfg.unicode with
      | error e =>
        refine iff_of_false ?_ (by simp)
        intro hend
        have hstatus := hend.row
        have hposted : t.posted d ↔ _ := hend.posted.trans hops.posted
        rw [hfound, hops.row] at hstatus
        have hkept : row.status = _ := congrArg Prod.fst (Option.some.inj hstatus)
        rw [hkept] at hopen
        exact hnew (hposted.mpr (approvedRow_open hopen))
      | ok n =>
        refine iff_of_true ?_ ⟨rfl, n, rfl⟩
        have hcomment := @approve_leaves cfg w c.client d c.request.repo c.request.actor n t row
          hfound hopen hnew hcalls
        rw [approvedRow_congr fun comment h => (hsame comment h).symm] at hcomment
        exact SameEnd.of_leaves hcomment hops
    | true =>
      have hops := @approveReview_handed cfg post d _ row hpublic hhandoff hrow hopen hfresh
      refine iff_of_false ?_ (by simp)
      intro hend
      have hverdict := hend.row
      cases hnumber : c.request.prNumber.toInt cfg.unicode with
      | error e =>
        rw [hnumber] at hverdict
        rw [hfound, hops.row] at hverdict
        have hsame : row.status = .executed := congrArg Prod.fst (Option.some.inj hverdict)
        rw [hsame] at hopen
        cases hopen
      | ok n =>
        have hcomment := @approve_leaves cfg w c.client d c.request.repo c.request.actor n t row
          hfound hopen hnew hcalls
        have hposted := hend.posted
        rw [hnumber] at hverdict hposted
        rw [hcomment.row, hops.row] at hverdict
        rw [hcomment.posted, hops.posted] at hposted
        have hpair := Option.some.inj hverdict
        have hurl := approvedRow_silent hposted.mp (congrArg Prod.fst hpair)
        have hlink : _ = some (prReviewUrl cfg.toSettings row) := congrArg (·.2.1) hpair
        have hempty : some "" = some (prReviewUrl cfg.toSettings row) := hurl.symm.trans hlink
        exact prReviewUrl_ne cfg.toSettings row (Option.some.inj hempty).symm

def approval : PyVal := commentPayload 5 "/autopr approve 42" "mona"

theorem approvals_agree_live :
    SameEnd 42
      (final (handleIssueComment .live (fun _ => friendly) .small true approval)
        (Database.small.desk .new))
      (final (approveReview CommandSettings.live.toSettings
        (fun _ => ⟨.answered posted, none⟩) 42) (Database.small.desk .new)) :=
  (approvals_agree_iff .live (fun _ => friendly) .small true approval .new
    (fun _ => ⟨.answered posted, none⟩) _ _ 42 queuedReview rfl rfl ⟨rfl, rfl, rfl, by decide⟩
    (by
      intro comment _
      rfl)).mpr fun _ => ⟨rfl, 7, rfl⟩

/-- Hand-off mode. -/
def CommandSettings.handoff : CommandSettings := { unicode := .ascii, handoffMode := true }

/-- The comment is answered by the fake client, the ops API by the link for a human. -/
theorem handoff_approvals_differ :
    outcome (handleIssueComment .handoff (fun _ => friendly) .small true approval)
        (Database.small.desk .new) =
      .ok (.executed 42 "https://fake.github/comment/1" "mona") ∧
    outcome (approveReview CommandSettings.handoff.toSettings
        (fun _ => ⟨.answered (fakeAnswer 0), none⟩) 42) (Database.small.desk .new) =
      .ok (.handedOff "https://github.com/acme/api/pull/7/files") ∧
    ¬ SameEnd 42
      (final (handleIssueComment .handoff (fun _ => friendly) .small true approval)
        (Database.small.desk .new))
      (final (approveReview CommandSettings.handoff.toSettings
        (fun _ => ⟨.answered (fakeAnswer 0), none⟩) 42) (Database.small.desk .new)) := by
  refine ⟨by decide, by decide, ?_⟩
  intro hend
  have hurl := congrArg (Option.map (·.2.1)) hend.row
  revert hurl
  decide

end AutoPR.Commands
