import AutoPR.Commands.Authorization
import AutoPR.Library.Returning

/-! When the handler of comments returns. It guards one kind of exception of one call; whatever
else the payload or GitHub may raise, leaves it. -/
namespace AutoPR.Commands
open Python UnitOfWork Routing Tenancy Relational

def commandOf (u : Unicode) : PyVal → Option Command
  | .str s => (contentLine s).bind (parseLine u)
  | _ => none

/-- `str(v or "")`. -/
def shown (u : Unicode) (v : PyVal) : String := (v.or (.str "")).toStr u

def isInhuman (u : Unicode) (user : PyVal) : Bool :=
  shown u (user.field "login") = "" || u.lower (shown u (user.field "type")) = "bot"

/-- What holds the fields of a comment is tested where the handler gets to it. -/
def readableComment (u : Unicode) (payload : PyVal) : Bool :=
  let issue := payload.field "issue"
  let comment := payload.field "comment"
  let user := comment.field "user"
  payload.isObject && (!(payload.field "action").eqStr "created" ||
    issue.isObjectual && (!(issue.field "pull_request").truthy ||
      comment.isObjectual && isTextual (comment.field "body") &&
        ((commandOf u (comment.field "body")).isNone ||
          user.isObjectual && (isInhuman u user ||
            (payload.field "repository").isObjectual &&
              (payload.field "installation").isObjectual))))

def requestOf (u : Unicode) (payload : PyVal) : Option Request :=
  let issue := payload.field "issue"
  let comment := payload.field "comment"
  let repo := shown u ((payload.field "repository").field "full_name")
  let installationId := (payload.field "installation").field "id"
  if !(payload.field "action").eqStr "created" || !(issue.field "pull_request").truthy ||
      isInhuman u (comment.field "user") || repo = "" || (issue.field "number").isNone ||
      installationId.isNone then none
  else
    (commandOf u (comment.field "body")).map fun command =>
      ⟨command, shown u ((comment.field "user").field "login"), repo, issue.field "number",
        installationId⟩

section
variable {u : Unicode} {payload v : PyVal}

theorem parseCommand_eq (h : isTextual v = true) :
    parseCommand u (v.or (.str "")) = .ok (commandOf u v) := by
  unfold parseCommand
  rw [or_or]
  unfold PyVal.or
  unfold isTextual at h
  cases htruthy : v.truthy with
  | true =>
    rw [htruthy] at h
    cases v with
    | str s => rfl
    | none | bool | int | float | list | dict => cases h
  | false =>
    cases v with
    | str s =>
      have hs : s = "" := by simpa [PyVal.truthy] using htruthy
      subst hs
      rfl
    | none | bool | int | float | list | dict => rfl

theorem returns_parseCommand :
    Returns (parseCommand u (v.or (.str ""))) ↔ isTextual v = true := by
  constructor
  · rintro ⟨command, h⟩
    unfold parseCommand at h
    rw [or_or] at h
    unfold isTextual
    cases htruthy : v.truthy with
    | false => rfl
    | true =>
      rw [PyVal.or, if_pos htruthy] at h
      cases v with
      | str s => rfl
      | none | bool | int | float | list | dict => cases h
  · intro h
    exact ⟨_, parseCommand_eq h⟩

theorem returns_readPayload :
    Returns (readPayload u payload) ↔ readableComment u payload = true := by
  have hcommand {β : Type} (v : PyVal) (f : Option Command → Py β) :
      Returns (parseCommand u (v.or (.str "")) >>= f) ↔
        isTextual v = true ∧ Returns (f (commandOf u v)) := by
    rw [returns_bind]
    constructor
    · rintro ⟨command, hparse, hrest⟩
      have htext := returns_parseCommand.mp ⟨command, hparse⟩
      rw [parseCommand_eq htext] at hparse
      cases hparse
      exact ⟨htext, hrest⟩
    · rintro ⟨htext, hrest⟩
      exact ⟨_, parseCommand_eq htext, hrest⟩
  unfold readPayload readableComment isInhuman shown
  simp only [returns_get_bind, isObject_or, field_or, returns_unless, hcommand]
  cases commandOf u ((payload.field "comment").field "body") with
  | none =>
    simp only [returns_pure, Option.isNone_none, Bool.true_or, Bool.and_eq_true, Bool.or_eq_true]
    tauto
  | some command =>
    simp only [returns_get_bind, isObject_or, field_or, returns_unless, returns_pure,
      Option.isNone_some, Bool.false_or, Bool.and_eq_true, Bool.or_eq_true, decide_eq_true_eq]
    tauto

theorem readPayload_request {found : Except String Request}
    (h : readPayload u payload = .ok found) : found.toOption = requestOf u payload := by
  unfold readPayload at h
  unfold requestOf isInhuman shown
  obtain ⟨action, haction, h⟩ := ok_of_bind h
  obtain rfl := get_field haction
  split at h
  · rename_i hother
    cases h
    simp [hother]
    rfl
  rename_i hcreated
  obtain ⟨issue, hissue, h⟩ := ok_of_bind h
  obtain rfl := get_field hissue
  obtain ⟨pull, hpull, h⟩ := ok_of_bind h
  obtain rfl := get_field hpull
  rw [field_or] at h
  split at h
  · rename_i hplain
    cases h
    simp [hplain]
    rfl
  rename_i htruthy
  obtain ⟨comment, hcomment, h⟩ := ok_of_bind h
  obtain rfl := get_field hcomment
  obtain ⟨body, hbody, h⟩ := ok_of_bind h
  obtain rfl := get_field hbody
  obtain ⟨command, hcommand, h⟩ := ok_of_bind h
  rw [field_or] at hcommand
  rw [parseCommand_eq (returns_parseCommand.mp ⟨command, hcommand⟩)] at hcommand
  cases hcommand
  dsimp only at h
  split at h
  · rename_i hnone
    cases h
    simp [hnone]
    rfl
  rename_i command hcommand
  obtain ⟨user, huser, h⟩ := ok_of_bind h
  obtain rfl := get_field huser
  obtain ⟨login, hlogin, h⟩ := ok_of_bind h
  obtain rfl := get_field hlogin
  simp only [field_or] at h
  split at h
  · rename_i hanonymous
    cases h
    simp [hanonymous]
    rfl
  rename_i hnamed
  obtain ⟨kind, hkind, h⟩ := ok_of_bind h
  obtain rfl := get_field hkind
  simp only [field_or] at h
  split at h
  · rename_i hbot
    cases h
    simp [hbot]
    rfl
  rename_i hhuman
  obtain ⟨repository, hrepository, h⟩ := ok_of_bind h
  obtain rfl := get_field hrepository
  obtain ⟨name, hname, h⟩ := ok_of_bind h
  obtain rfl := get_field hname
  obtain ⟨number, hnumber, h⟩ := ok_of_bind h
  obtain rfl := get_field hnumber
  obtain ⟨installation, hinstallation, h⟩ := ok_of_bind h
  obtain rfl := get_field hinstallation
  obtain ⟨id, hid, h⟩ := ok_of_bind h
  obtain rfl := get_field hid
  simp only [field_or] at h
  split at h
  · rename_i hincomplete
    cases h
    rw [if_pos]
    · rfl
    · simp only [Bool.or_eq_true] at hincomplete ⊢
      tauto
  · rename_i hcomplete
    cases h
    rw [if_neg, hcommand]
    · rfl
    · simp only [Bool.or_eq_true, decide_eq_true_eq] at hcomplete ⊢
      tauto

end

inductive Errand where
  | silent
  | reply (body : String)
  | execute (d : DecisionId) (claimed : ReviewDecision)

def Errand.ofApproval (d : DecisionId) (row : ReviewDecision) : Errand :=
  match row.status with
  | .pending | .failed => .execute d { row with status := .approved }
  | .executed => .reply ("`#" ++ toString d ++ "` was already executed.")
  | .rejected => .reply ("`#" ++ toString d ++ "` was rejected; nothing to do.")
  | .approved => .reply ("`#" ++ toString d ++ "` is being executed right now.")

def Errand.ofRejection (d : DecisionId) (row : ReviewDecision) : Errand :=
  match row.status with
  | .pending => .silent
  | .executed => .reply ("`#" ++ toString d ++ "` already executed; cannot reject.")
  | .approved | .rejected | .failed =>
      .reply ("`#" ++ toString d ++ "` is executing; cannot reject.")

def errand (cfg : CommandSettings) (db : Database) (rows : DecisionTable) (request : Request)
    (i : Int) : Errand :=
  let command := request.command
  if command.verb = "help" then .reply helpText
  else if command.verb = "status" then
    .reply (statusText cfg.unicode (pendingForRepo db rows request.repo i))
  else
    match command.decisionId with
    | none =>
        .reply ("Usage: `/autopr " ++ command.verb ++ " <id>` — see `/autopr status` for ids.")
    | some d =>
        match (rows d).filter (addressable cfg.unicode request.repo i) with
        | none =>
            .reply ("No decision `#" ++ toString d ++ "` is awaiting review on this repository.")
        | some row => if command.verb = "reject" then .ofRejection d row else .ofApproval d row

/-- The posts of an errand are answered, and the row's own post can be built. -/
def Errand.answered (u : Unicode) (w : Nat → Moment) (client : Client) (repo : String) (n : Int) :
    Errand → Prop
  | .silent => True
  | .reply body => client.postIssueComment (w 3) 0 ⟨.str repo, n, body⟩ ≠ .raised
  | .execute d claimed =>
      match claimed.comment u with
      | .error _ => False
      | .ok none => True
      | .ok (some comment) =>
          match client.postIssueComment (w 3) 0 comment with
          | .raised => False
          | .answered result => result.ok = false →
              client.postIssueComment (w 4) 1 ⟨.str repo, n,
                "Could not execute `#" ++ toString d ++ "`: " ++ result.detail⟩ ≠ .raised

section
variable {cfg : CommandSettings} {w : Nat → Moment} {client : Client} {d : DecisionId}
  {repo actor body : String} {n : Int} {s t : Desk} {row claimed : ReviewDecision}
  {comment : Comment} {deed : Bool → Deed} {calls : Nat}

theorem send_answered {result : ActionResult} (hcalls : s.deeds.countP Deed.isComment = calls)
    (h : client.postIssueComment (w (3 + calls)) calls comment = .answered result) :
    send w client comment deed s =
      .ok result { s with deeds := deed (PostOutcome.answered result).ok :: s.deeds } := by
  unfold send
  dsimp only
  rw [hcalls, h]

theorem send_raised (hcalls : s.deeds.countP Deed.isComment = calls)
    (h : client.postIssueComment (w (3 + calls)) calls comment = .raised) :
    ∃ t, send w client comment deed s = .error .client t := by
  unfold send
  dsimp only
  rw [hcalls, h]
  exact ⟨_, rfl⟩

theorem completes_send (hcalls : s.deeds.countP Deed.isComment = calls) :
    Completes (send w client comment deed) s ↔
      client.postIssueComment (w (3 + calls)) calls comment ≠ .raised := by
  cases houtcome : client.postIssueComment (w (3 + calls)) calls comment with
  | answered result => exact iff_of_true ⟨_, _, send_answered hcalls houtcome⟩ (by simp)
  | raised =>
    obtain ⟨t, hsend⟩ := @send_raised w client s comment deed calls hcalls houtcome
    exact iff_of_false (not_completes hsend) (by simp)

theorem completes_sendReply (hcalls : s.deeds.countP Deed.isComment = calls) :
    Completes (sendReply w client repo n body) s ↔
      client.postIssueComment (w (3 + calls)) calls ⟨.str repo, n, body⟩ ≠ .raised := by
  unfold sendReply
  rw [completes_bind_of fun result t _ => iff_true_intro (Completes.pure _ t), and_true]
  exact completes_send hcalls

theorem completes_settle {result : ActionResult} (hcalls : s.deeds.countP Deed.isComment = calls) :
    Completes (settle w client d repo n actor claimed result) s ↔
      (result.ok = false → client.postIssueComment (w (3 + calls)) calls ⟨.str repo, n,
        "Could not execute `#" ++ toString d ++ "`: " ++ result.detail⟩ ≠ .raised) := by
  unfold settle
  cases result.ok with
  | true => exact iff_of_true ⟨_, _, rfl⟩ (by simp)
  | false =>
    rw [if_neg Bool.false_ne_true, forall_prop_of_true rfl]
    have hstore : store d (claimed.markFailed claimed result.detail) s =
        .ok () (final (store d (claimed.markFailed claimed result.detail)) s) := rfl
    have hcount : (final (store d (claimed.markFailed claimed result.detail)) s).deeds.countP
        Deed.isComment = calls := hcalls
    rw [completes_bind_ok hstore, ← completes_sendReply hcount,
      completes_bind_of fun _ t _ => iff_true_intro (Completes.pure _ t), and_true]

theorem completes_execute (hcalls : s.deeds.countP Deed.isComment = 0) :
    Completes (execute cfg w client d repo n actor claimed) s ↔
      (Errand.execute d claimed).answered cfg.unicode w client repo n := by
  unfold execute perform Errand.answered
  dsimp only
  cases claimed.comment cfg.unicode with
  | error e => exact iff_of_false (not_completes rfl) not_false
  | ok made =>
    cases made with
    | none => exact iff_of_true ⟨_, _, rfl⟩ trivial
    | some comment =>
      change Completes (send w client comment (.posted d client.token comment) >>= _) s ↔ _
      dsimp only
      cases houtcome : client.postIssueComment (w 3) 0 comment with
      | raised =>
        obtain ⟨t, hsend⟩ := @send_raised w client s comment (.posted d client.token comment) 0
          hcalls houtcome
        exact iff_of_false (not_completes (bind_of_error hsend)) not_false
      | answered result =>
        rw [completes_bind_ok (send_answered hcalls houtcome)]
        apply completes_settle
        rw [List.countP_cons_of_pos rfl, hcalls]

theorem completes_approve (hrow : s.rows d = some row)
    (hcalls : s.deeds.countP Deed.isComment = 0) :
    Completes (approve cfg w client d repo n actor) s ↔
      (Errand.ofApproval d row).answered cfg.unicode w client repo n := by
  unfold approve Errand.ofApproval
  cases hopen : row.status.takeable with
  | true =>
    rw [completes_bind_ok (claimApproval_open hrow hopen)]
    have hexecute := @completes_execute cfg w client d repo actor n
      (final (store d { row with status := .approved }) s) { row with status := .approved } hcalls
    cases hst : row.status with
    | pending | failed => exact hexecute
    | executed | rejected | approved =>
      rw [hst] at hopen
      cases hopen
  | false =>
    rw [completes_bind_ok (claimApproval_closed hrow hopen)]
    cases hst : row.status with
    | executed | rejected | approved => exact completes_sendReply hcalls
    | pending | failed =>
      rw [hst] at hopen
      cases hopen

theorem completes_reject (hrow : s.rows d = some row)
    (hcalls : s.deeds.countP Deed.isComment = 0) :
    Completes (reject w client d repo n actor) s ↔
      (Errand.ofRejection d row).answered cfg.unicode w client repo n := by
  unfold reject Errand.ofRejection
  cases hst : row.status with
  | pending =>
    rw [completes_bind_ok (rejectPending_open hrow hst)]
    exact iff_of_true (Completes.pure _ _) trivial
  | executed | approved | rejected | failed =>
    rw [completes_bind_ok (rejectPending_closed hrow (by simp [hst])), hst]
    exact completes_sendReply hcalls

theorem completes_obey {db : Database} {c : Cleared}
    (hcalls : s.deeds.countP Deed.isComment = 0) :
    Completes (obey cfg w db c) s ↔
      ∃ n, c.request.prNumber.toInt cfg.unicode = .ok n ∧
        (errand cfg db s.rows c.request c.installation).answered cfg.unicode w c.client
          c.request.repo n := by
  unfold obey
  cases hnumber : c.request.prNumber.toInt cfg.unicode with
  | error e =>
    refine iff_of_false (not_completes rfl) ?_
    rintro ⟨n, hn, -⟩
    cases hn
  | ok n =>
    have hrun : orRaise (.ok n) s = .ok n s := rfl
    rw [completes_bind_ok hrun]
    simp only [Except.ok.injEq, exists_eq_left']
    unfold errand
    dsimp only
    split
    · exact completes_sendReply hcalls
    split
    · exact completes_sendReply hcalls
    cases c.request.command.decisionId with
    | none => exact completes_sendReply hcalls
    | some d =>
      dsimp only
      have hfind : decisionFor cfg.unicode d c.request.repo c.installation s =
          .ok ((s.rows d).filter (addressable cfg.unicode c.request.repo c.installation)) s := rfl
      rw [completes_bind_ok hfind]
      cases hfound : (s.rows d).filter (addressable cfg.unicode c.request.repo c.installation) with
      | none => exact completes_sendReply hcalls
      | some row =>
        have hrow := (Option.filter_eq_some_iff.mp hfound).1
        dsimp only
        split
        · exact completes_reject hrow hcalls
        · exact completes_approve hrow hcalls

end

/-- What a request of an active installation comes to. Of the two App calls only the first is
guarded, and against `GitHubAppError` alone; the number is converted even for a log line. -/
def CallsReturn (cfg : CommandSettings) (w : Nat → Moment) (db : Database) (auth : AppAuth)
    (rows : DecisionTable) (request : Request) (i : Int) : Prop :=
  match auth.collaboratorPermission cfg.unicode (w 0) (w 1) i request.repo request.actor with
  | (.error (.gitHubApp _), _) => True
  | (.error (.raised _), _) => False
  | (.ok (_, permission), auth) =>
      ∃ n, request.prNumber.toInt cfg.unicode = .ok n ∧ (permission ∈ approverPermissions →
        ∃ client auth', auth.client cfg.toClientSettings (w 2) i = (.ok client, auth') ∧
          (errand cfg db rows request i).answered cfg.unicode w client request.repo n)

def Answerable (cfg : CommandSettings) (w : Nat → Moment) (db : Database) (configured : Bool)
    (payload : PyVal) (auth : AppAuth) (rows : DecisionTable) : Prop :=
  cfg.githubCommentCommands = false ∨ readableComment cfg.unicode payload = true ∧
    ∀ request, requestOf cfg.unicode payload = some request → configured = true →
      ∃ i, request.installationId.toInt cfg.unicode = .ok i ∧
        ((db.tenants.getActive i).isSome = true → CallsReturn cfg w db auth rows request i)

section
variable {cfg : CommandSettings} {w : Nat → Moment} {db : Database} {configured : Bool}
  {payload : PyVal} {s : Desk} {request : Request} {i : Int}

theorem orRaise_value {α : Type} (a : α) : orRaise (.ok a) = pure a := rfl

theorem orRaise_error {α : Type} (e : PyError) :
    (orRaise (.error e) : Handling α) = throw (.py e) := rfl

theorem completes_active (hcalls : s.deeds.countP Deed.isComment = 0)
    (henabled : cfg.githubCommentCommands = true)
    (hread : readPayload cfg.unicode payload = .ok (.ok request))
    (hint : request.installationId.toInt cfg.unicode = .ok i)
    (hactive : (db.tenants.getActive i).isSome = true) :
    Completes (handleIssueComment cfg w db true payload) s ↔
      CallsReturn cfg w db s.auth s.rows request i := by
  have hone : (db.tenants.getActive i).isNone = false := by
    rw [Option.isNone_eq_false_iff]
    exact hactive
  unfold handleIssueComment clear CallsReturn
  simp only [henabled, Bool.not_true, Bool.false_eq_true, if_false, hread, orRaise_value, pure_bind,
    hint, hone, bind_assoc]
  cases hask : s.auth.collaboratorPermission cfg.unicode (w 0) (w 1) i request.repo
      request.actor with
  | mk answer auth =>
    cases answer with
    | error e =>
      cases e with
      | gitHubApp detail =>
        have hnone : askPermission cfg.unicode w i request.repo request.actor s =
            .ok none { s with auth := auth } := by simp only [askPermission, hask]
        rw [completes_bind_ok hnone]
        exact iff_of_true (Completes.pure _ _) trivial
      | raised e =>
        have hraised : askPermission cfg.unicode w i request.repo request.actor s =
            .error (.auth (.raised e)) { s with auth := auth } := by simp only [askPermission, hask]
        exact iff_of_false (not_completes (bind_of_error hraised)) not_false
    | ok answered =>
      obtain ⟨token, permission⟩ := answered
      have hsome : askPermission cfg.unicode w i request.repo request.actor s =
          .ok (some permission) ⟨auth, s.rows,
            .asked token request.repo request.actor permission :: s.deeds⟩ := by
        simp only [askPermission, hask]
      rw [completes_bind_ok hsome]
      dsimp only
      by_cases hpermitted : permission ∈ approverPermissions
      · rw [if_neg (not_not.mpr hpermitted)]
        cases hclient : auth.client cfg.toClientSettings (w 2) i with
        | mk made auth' =>
          cases made with
          | error e =>
            have hraised : makeClient cfg w i ⟨auth, s.rows,
                .asked token request.repo request.actor permission :: s.deeds⟩ =
                .error (.auth e) ⟨auth', s.rows,
                  .asked token request.repo request.actor permission :: s.deeds⟩ := by
              simp only [makeClient, hclient]
            refine iff_of_false (not_completes (bind_of_error (bind_of_error hraised))) ?_
            rintro ⟨n, -, hrest⟩
            obtain ⟨client, auth'', hmade, -⟩ := hrest hpermitted
            cases hmade
          | ok client =>
            have hmade : makeClient cfg w i ⟨auth, s.rows,
                .asked token request.repo request.actor permission :: s.deeds⟩ =
                .ok client ⟨auth', s.rows,
                  .asked token request.repo request.actor permission :: s.deeds⟩ := by
              simp only [makeClient, hclient]
            rw [bind_assoc, completes_bind_ok hmade, pure_bind]
            have hcount : (Deed.asked token request.repo request.actor permission ::
                s.deeds).countP Deed.isComment = 0 := hcalls
            refine (@completes_obey cfg w ⟨auth', s.rows,
              .asked token request.repo request.actor permission :: s.deeds⟩ db
              ⟨request, i, client⟩ hcount).trans ?_
            simp [hpermitted]
      · rw [if_pos hpermitted]
        cases hnumber : request.prNumber.toInt cfg.unicode with
        | error e =>
          refine iff_of_false (not_completes rfl) ?_
          rintro ⟨n, hn, -⟩
          cases hn
        | ok n =>
          refine iff_of_true (Completes.pure _ _) ⟨n, rfl, ?_⟩
          intro hmem
          exact absurd hmem hpermitted

theorem requestOf_installationId {u : Unicode} (h : requestOf u payload = some request) :
    request.installationId = (payload.field "installation").field "id" := by
  unfold requestOf at h
  dsimp only at h
  split at h
  · cases h
  · obtain ⟨command, -, rfl⟩ := Option.map_eq_some_iff.mp h
    rfl

/-- The handler answers; a delivery whose installation has no number for an id is ignored. -/
def Answered (u : Unicode) (payload : PyVal) (x : Handling CommentResult) (s : Desk) : Prop :=
  ∃ result t, x s = .ok result t ∧
    (isNumber u ((payload.field "installation").field "id") = false →
      ∃ reason, result = .ignored reason)

theorem answered_ignored {u : Unicode} {x : Handling CommentResult} {reason : String}
    (h : x s = .ok (.ignored reason) s) : Answered u payload x s :=
  ⟨_, s, h, fun _ => ⟨reason, rfl⟩⟩

theorem not_answered {u : Unicode} {x : Handling CommentResult} {e : Raised} {t : Desk}
    (h : x s = .error e t) : ¬ Answered u payload x s := by
  rintro ⟨result, t', hx, -⟩
  cases h.symm.trans hx

theorem request_answered_iff (hcalls : s.deeds.countP Deed.isComment = 0)
    (henabled : cfg.githubCommentCommands = true)
    (hread : readPayload cfg.unicode payload = .ok (.ok request)) :
    Answered cfg.unicode payload (handleIssueComment cfg w db configured payload) s ↔
      (configured = true → ∃ i, request.installationId.toInt cfg.unicode = .ok i ∧
        ((db.tenants.getActive i).isSome = true →
          CallsReturn cfg w db s.auth s.rows request i)) := by
  cases configured with
  | false =>
    refine iff_of_true (@answered_ignored _ _ _ _ "no_app_credentials" ?_) (by simp)
    simp [handleIssueComment, clear, henabled, hread, orRaise_value]
    rfl
  | true =>
    rw [forall_prop_of_true rfl]
    cases hint : request.installationId.toInt cfg.unicode with
    | error e =>
      refine iff_of_false (@not_answered _ _ _ _ (.py e) s ?_) (by simp)
      simp [handleIssueComment, clear, henabled, hread, orRaise_value, hint, orRaise_error]
      rfl
    | ok i =>
      simp only [Except.ok.injEq, exists_eq_left']
      cases hactive : (db.tenants.getActive i).isSome with
      | false =>
        refine iff_of_true (@answered_ignored _ _ _ _ "installation_inactive" ?_) (by simp)
        have hnone : db.tenants.getActive i = none := by simpa using hactive
        simp [handleIssueComment, clear, henabled, hread, orRaise_value, hint, hnone]
        rfl
      | true =>
        rw [forall_prop_of_true rfl, ← completes_active hcalls henabled hread hint hactive]
        have hrequest : requestOf cfg.unicode payload = some request :=
          (readPayload_request hread).symm
        have hnumber : isNumber cfg.unicode
            ((payload.field "installation").field "id") = true := by
          rw [← requestOf_installationId hrequest]
          exact returns_toInt.mp ⟨i, hint⟩
        constructor
        · rintro ⟨result, t, hrun, -⟩
          exact ⟨result, t, hrun⟩
        · rintro ⟨result, t, hrun⟩
          exact ⟨result, t, hrun, by simp [hnumber]⟩

theorem handle_answered_iff (hcalls : s.deeds.countP Deed.isComment = 0) :
    Answered cfg.unicode payload (handleIssueComment cfg w db configured payload) s ↔
      Answerable cfg w db configured payload s.auth s.rows := by
  unfold Answerable
  cases henabled : cfg.githubCommentCommands with
  | false =>
    refine iff_of_true (@answered_ignored _ _ _ _ "comment_commands_disabled" ?_) (.inl rfl)
    simp [handleIssueComment, clear, henabled]
    rfl
  | true =>
    rw [or_iff_right (by simp)]
    cases hread : readPayload cfg.unicode payload with
    | error e =>
      have hunreadable := mt returns_readPayload.mpr (by rw [hread]; exact not_returns e)
      refine iff_of_false (@not_answered _ _ _ _ (.py e) s ?_) fun h => hunreadable h.1
      simp [handleIssueComment, clear, henabled, hread, orRaise_error]
      rfl
    | ok found =>
      rw [and_iff_right (returns_readPayload.mp ⟨found, hread⟩), ← readPayload_request hread]
      cases found with
      | error reason =>
        refine iff_of_true (@answered_ignored _ _ _ _ reason ?_) ?_
        · simp [handleIssueComment, clear, henabled, hread, orRaise_value]
          rfl
        · intro request hnone
          cases hnone
      | ok request =>
        rw [request_answered_iff hcalls henabled hread]
        simp [Except.toOption]

end

end AutoPR.Commands
