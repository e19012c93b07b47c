import AutoPR.Commands.Handler
import AutoPR.Library.Relational
import AutoPR.Routing.Steps

/-! On whose authority a comment acts. What passes the checks is a command of a named human
with write access, from an active installation; and the one row that it can touch is that
installation's, in that repository. -/
namespace AutoPR.Commands
open Python UnitOfWork Routing Tenancy Relational

structure Asks (u : Unicode) (payload : PyVal) (request : Request) : Prop where
  created : payload.get "action" .none = .ok (.str "created")
  pullRequest : ∃ issue pull, payload.get "issue" .none = .ok issue ∧
    issue.get "pull_request" .none = .ok pull ∧ pull.truthy = true
  command : ∃ comment body line, payload.get "comment" .none = .ok comment ∧
    comment.get "body" .none = .ok (.str body) ∧ contentLine body = some line ∧
    parseLine u line = some request.command
  actor : ∃ comment user login kind, payload.get "comment" .none = .ok comment ∧
    comment.get "user" .none = .ok user ∧ user.get "login" .none = .ok login ∧
    login.toStr u = request.actor ∧ request.actor ≠ "" ∧
    user.get "type" .none = .ok kind ∧ u.lower ((kind.or (.str "")).toStr u) ≠ "bot"
  repository : ∃ repository name, payload.get "repository" .none = .ok repository ∧
    repository.get "full_name" .none = .ok name ∧ name.toStr u = request.repo ∧ request.repo ≠ ""
  installation : ∃ installation, payload.get "installation" .none = .ok installation ∧
    installation.get "id" .none = .ok request.installationId

section
variable {u : Unicode} {payload v x : PyVal} {key : String} {request : Request}

theorem get_of_or (h : (v.or (.dict [])).get key .none = .ok x) (hx : x.isNone = false) :
    v.get key .none = .ok x := by
  unfold PyVal.or at h
  split at h
  · exact h
  · cases h
    cases hx

theorem isNone_of_truthy (h : x.truthy = true) : x.isNone = false := by
  cases x with
  | none => cases h
  | _ => rfl

theorem truthy_of_text {s : String} (h : (x.or (.str "")).toStr u = s) (hs : s ≠ "") :
    x.truthy = true ∧ x.toStr u = s := by
  unfold PyVal.or at h
  split at h
  · rename_i htruthy
    exact ⟨htruthy, h⟩
  · exact absurd h.symm hs

theorem truthy_of_get (h : v.get key .none = .ok x) (hx : x.isNone = false) : v.truthy = true := by
  cases v with
  | dict items =>
    cases items with
    | nil =>
      cases h
      cases hx
    | cons item rest => rfl
  | _ => cases h

theorem eqStr_eq {s : String} (h : v.eqStr s = true) : v = .str s := by
  cases v with
  | str t => exact congrArg PyVal.str (of_decide_eq_true h)
  | _ => cases h

theorem or_or (v w : PyVal) : (v.or w).or w = v.or w := by
  cases hv : v.truthy <;> simp [PyVal.or, hv]

theorem parseCommand_some {body : PyVal} {command : Command}
    (h : parseCommand u (body.or (.str "")) = .ok (some command)) :
    ∃ text line, body = .str text ∧ contentLine text = some line ∧
      parseLine u line = some command := by
  unfold parseCommand at h
  rw [or_or] at h
  split at h
  · rename_i text htext
    obtain ⟨line, hline, hparse⟩ := Option.bind_eq_some_iff.mp (Except.ok.inj h)
    refine ⟨text, line, ?_, hline, hparse⟩
    cases hbody : body.truthy with
    | true =>
      rw [PyVal.or, if_pos hbody] at htext
      exact htext
    | false =>
      rw [PyVal.or, hbody, if_neg Bool.false_ne_true] at htext
      cases htext
      cases hline
  · cases h

theorem readPayload_asks (h : readPayload u payload = .ok (.ok request)) : Asks u payload request := by
  unfold readPayload at h
  obtain ⟨action, haction, h⟩ := ok_of_bind h
  split at h
  · cases h
  rename_i hcreated
  obtain ⟨issue, hissue, h⟩ := ok_of_bind h
  obtain ⟨pull, hpull, h⟩ := ok_of_bind h
  split at h
  · cases h
  rename_i htruthy
  obtain ⟨comment, hcomment, h⟩ := ok_of_bind h
  obtain ⟨body, hbody, h⟩ := ok_of_bind h
  obtain ⟨command, hcommand, h⟩ := ok_of_bind h
  split at h
  · cases h
  rename_i command
  obtain ⟨user, huser, h⟩ := ok_of_bind h
  obtain ⟨login, hlogin, h⟩ := ok_of_bind h
  dsimp only at h
  split at h
  · cases h
  rename_i hactor
  obtain ⟨kind, hkind, h⟩ := ok_of_bind h
  split at h
  · cases h
  rename_i hhuman
  obtain ⟨repository, hrepository, h⟩ := ok_of_bind h
  obtain ⟨name, hname, h⟩ := ok_of_bind h
  obtain ⟨number, hnumber, h⟩ := ok_of_bind h
  obtain ⟨installation, hinstallation, h⟩ := ok_of_bind h
  obtain ⟨id, hid, h⟩ := ok_of_bind h
  split at h
  · cases h
  rename_i hcomplete
  cases h
  simp only [Bool.not_eq_true', Bool.not_eq_false] at hcreated htruthy
  simp only [Bool.or_eq_true, decide_eq_true_eq, not_or, Bool.not_eq_true] at hcomplete
  obtain ⟨⟨hrepo, -⟩, hid'⟩ := hcomplete
  obtain ⟨text, line, rfl, hline, hparse⟩ := parseCommand_some hcommand
  obtain ⟨hlogged, hnamed⟩ := truthy_of_text rfl hactor
  obtain ⟨hname', hrepo'⟩ := truthy_of_text rfl hrepo
  have hcomment' := get_of_or hbody rfl
  have huser' := get_of_or hlogin (isNone_of_truthy hlogged)
  refine ⟨?_, ⟨issue, pull, hissue, get_of_or hpull (isNone_of_truthy htruthy), htruthy⟩,
    ⟨comment, text, line, hcomment, hcomment', hline, hparse⟩, ?_,
    ⟨repository, name, hrepository, get_of_or hname (isNone_of_truthy hname'), hrepo', hrepo⟩,
    ⟨installation, hinstallation, get_of_or hid hid'⟩⟩
  · rw [haction, eqStr_eq hcreated]
  · have htruthy' := truthy_of_get huser' (isNone_of_truthy hlogged)
    rw [PyVal.or, if_pos htruthy'] at hkind
    exact ⟨comment, user, login, kind, hcomment, get_of_or huser (isNone_of_truthy htruthy'), huser',
      hnamed, hactor, hkind, hhuman⟩

end

/-- What has been checked of a request that is carried out. -/
structure Sanctioned (cfg : CommandSettings) (w : Nat → Moment) (db : Database) (configured : Bool)
    (payload : PyVal) (auth : AppAuth) (c : Cleared) (token : InstallationToken)
    (permission : String) : Prop where
  enabled : cfg.githubCommentCommands = true
  configured : configured = true
  read : readPayload cfg.unicode payload = .ok (.ok c.request)
  installation : c.request.installationId.toInt cfg.unicode = .ok c.installation
  active : (db.tenants.getActive c.installation).isSome = true
  permitted : permission ∈ approverPermissions
  asked : ∃ auth₁ auth₂, auth.collaboratorPermission cfg.unicode (w 0) (w 1) c.installation
      c.request.repo c.request.actor = (.ok (token, permission), auth₁) ∧
    auth₁.client cfg.toClientSettings (w 2) c.installation = (.ok c.client, auth₂)

def Deed.isAsked : Deed → Bool
  | .asked .. => true
  | _ => false

structure Silent (s t : Desk) : Prop where
  rows : t.rows = s.rows
  deeds : ∀ e ∈ t.deeds, e ∈ s.deeds ∨ e.isAsked = true

structure Quiet (s t : Desk) : Prop where
  rows : t.rows = s.rows
  posted : ∀ d credential comment ok, .posted d credential comment ok ∈ t.deeds →
    .posted d credential comment ok ∈ s.deeds

section
variable {cfg : CommandSettings} {w : Nat → Moment} {db : Database} {configured : Bool}
  {payload : PyVal} {u : Unicode} {s t : Desk} {c : Cleared}

theorem Quiet.refl (s : Desk) : Quiet s s := ⟨rfl, fun _ _ _ _ h => h⟩

theorem Quiet.trans (s t v : Desk) (h : Quiet s t) (h' : Quiet t v) : Quiet s v :=
  ⟨h'.rows.trans h.rows, fun d credential comment ok hmem =>
    h.posted d credential comment ok (h'.posted d credential comment ok hmem)⟩

theorem Silent.refl (s : Desk) : Silent s s := ⟨rfl, fun _ h => .inl h⟩

theorem Silent.trans (s t v : Desk) (h : Silent s t) (h' : Silent t v) : Silent s v := by
  refine ⟨h'.rows.trans h.rows, fun e he => ?_⟩
  obtain hold | hasked := h'.deeds e he
  · exact h.deeds e hold
  · exact .inr hasked

theorem Silent.quiet (h : Silent s t) : Quiet s t := by
  refine ⟨h.rows, fun d credential comment ok hmem => ?_⟩
  obtain hold | hasked := h.deeds _ hmem
  · exact hold
  · cases hasked

theorem orRaise_keeps {α : Type} {R : Desk → Desk → Prop} (hrefl : ∀ s, R s s) (x : Py α) :
    Keeps R (orRaise x) := by
  cases x with
  | ok a => exact Keeps.pure hrefl a
  | error e => exact Keeps.throw hrefl _

theorem askPermission_silent (i : Int) (repo login : String) :
    Keeps Silent (askPermission u w i repo login) := by
  intro s
  unfold final askPermission
  split <;> rename_i heq
  · split at heq <;> cases heq
    · refine ⟨rfl, fun e he => ?_⟩
      obtain rfl | hold := List.mem_cons.mp he
      · exact .inr rfl
      · exact .inl hold
    · exact ⟨rfl, fun _ h => .inl h⟩
  · split at heq <;> cases heq
    exact ⟨rfl, fun _ h => .inl h⟩

theorem makeClient_silent (i : Int) : Keeps Silent (makeClient cfg w i) := by
  intro s
  unfold final makeClient
  split <;> rename_i heq <;> split at heq <;> cases heq <;> exact ⟨rfl, fun _ h => .inl h⟩

theorem clear_keeps {R : Desk → Desk → Prop} (hrefl : ∀ s, R s s)
    (htrans : ∀ s t v, R s t → R t v → R s v)
    (hask : ∀ i repo login, Keeps R (askPermission cfg.unicode w i repo login))
    (hmake : ∀ i, Keeps R (makeClient cfg w i)) : Keeps R (clear cfg w db configured payload) := by
  unfold clear
  refine Keeps.ite (Keeps.pure hrefl _) (Keeps.bind htrans (orRaise_keeps hrefl _) fun found => ?_)
  cases found with
  | error reason => exact Keeps.pure hrefl _
  | ok request =>
    refine Keeps.ite (Keeps.pure hrefl _) (Keeps.bind htrans (orRaise_keeps hrefl _) fun i => ?_)
    refine Keeps.ite (Keeps.pure hrefl _) (Keeps.bind htrans (hask _ _ _) fun answer => ?_)
    cases answer with
    | none => exact Keeps.pure hrefl _
    | some permission =>
      refine Keeps.ite ?_ ?_
      · exact Keeps.bind htrans (orRaise_keeps hrefl _) fun _ => Keeps.pure hrefl _
      · exact Keeps.bind htrans (hmake _) fun _ => Keeps.pure hrefl _

theorem clear_silent : Keeps Silent (clear cfg w db configured payload) :=
  clear_keeps Silent.refl Silent.trans askPermission_silent makeClient_silent

theorem orRaise_ok {α : Type} {x : Py α} {a : α} (h : orRaise x s = .ok a t) : x = .ok a ∧ t = s := by
  cases x with
  | ok b =>
    cases h
    exact ⟨rfl, rfl⟩
  | error e => cases h

theorem askPermission_ok {i : Int} {repo login permission : String}
    (h : askPermission u w i repo login s = .ok (some permission) t) : ∃ token auth,
    s.auth.collaboratorPermission u (w 0) (w 1) i repo login = (.ok (token, permission), auth) ∧
    t = ⟨auth, s.rows, .asked token repo login permission :: s.deeds⟩ := by
  unfold askPermission at h
  split at h
  · rename_i token found auth hanswer
    cases h
    exact ⟨token, auth, hanswer, rfl⟩
  · cases h
  · cases h

theorem makeClient_ok {i : Int} {client : Client} (h : makeClient cfg w i s = .ok client t) :
    ∃ auth, s.auth.client cfg.toClientSettings (w 2) i = (.ok client, auth) ∧
      t = { s with auth := auth } := by
  unfold makeClient at h
  split at h
  · rename_i found auth hfound
    cases h
    exact ⟨auth, hfound, rfl⟩
  · cases h

theorem clear_ok (h : clear cfg w db configured payload s = .ok (.ok c) t) :
    ∃ token permission auth, Sanctioned cfg w db configured payload s.auth c token permission ∧
      t = ⟨auth, s.rows, .asked token c.request.repo c.request.actor permission :: s.deeds⟩ := by
  unfold clear at h
  split at h
  · cases h
  rename_i henabled
  obtain ⟨found, s₁, hfound, h₁⟩ := bind_ok h
  obtain ⟨hread, rfl⟩ := orRaise_ok hfound
  cases found with
  | error reason => cases h₁
  | ok request =>
    dsimp only at h₁
    split at h₁
    · cases h₁
    rename_i hconfigured
    obtain ⟨i, s₂, hnumber, h₂⟩ := bind_ok h₁
    obtain ⟨hint, rfl⟩ := orRaise_ok hnumber
    split at h₂
    · cases h₂
    rename_i hactive
    obtain ⟨answer, s₃, hask, h₃⟩ := bind_ok h₂
    cases answer with
    | none => cases h₃
    | some permission =>
      obtain ⟨token, auth₁, hanswer, rfl⟩ := askPermission_ok hask
      dsimp only at h₃
      split at h₃
      · obtain ⟨n, s₄, -, h₄⟩ := bind_ok h₃
        cases h₄
      rename_i hpermitted
      obtain ⟨client, s₄, hmade, h₄⟩ := bind_ok h₃
      obtain ⟨auth₂, hclient, rfl⟩ := makeClient_ok hmade
      cases h₄
      refine ⟨token, permission, auth₂, ⟨by simpa using henabled, by simpa using hconfigured, hread,
        hint, ?_, by simpa using hpermitted, auth₁, auth₂, hanswer, hclient⟩, rfl⟩
      simpa [Option.isNone_iff_eq_none, Option.isSome_iff_ne_none] using hactive

theorem clear_of {token : InstallationToken} {permission : String}
    (h : Sanctioned cfg w db configured payload s.auth c token permission) :
    ∃ auth, clear cfg w db configured payload s = .ok (.ok c)
      ⟨auth, s.rows, .asked token c.request.repo c.request.actor permission :: s.deeds⟩ := by
  obtain ⟨henabled, hconfigured, hread, hint, hactive, hpermitted, auth₁, auth₂, hask, hclient⟩ := h
  have hanswer : askPermission cfg.unicode w c.installation c.request.repo c.request.actor s =
      .ok (some permission)
        ⟨auth₁, s.rows, .asked token c.request.repo c.request.actor permission :: s.deeds⟩ := by
    simp only [askPermission, hask]
  have hmade : makeClient cfg w c.installation
      ⟨auth₁, s.rows, .asked token c.request.repo c.request.actor permission :: s.deeds⟩ =
      .ok c.client
        ⟨auth₂, s.rows, .asked token c.request.repo c.request.actor permission :: s.deeds⟩ := by
    simp only [makeClient, hclient]
  have hone : (db.tenants.getActive c.installation).isNone = false := by
    rw [Option.isNone_eq_false_iff]
    exact hactive
  refine ⟨auth₂, ?_⟩
  unfold clear
  simp only [henabled, hconfigured, Bool.not_true, Bool.false_eq_true, if_false, hread, orRaise,
    pure_bind, hint, hone]
  rw [bind_of_ok hanswer]
  dsimp only
  rw [if_neg (not_not.mpr hpermitted), bind_of_ok hmade]
  rfl

end

structure Confined (d : DecisionId) (s t : Desk) : Prop where
  rows : ∀ d', d' ≠ d → t.rows d' = s.rows d'
  posted : ∀ d' credential comment ok, d' ≠ d → .posted d' credential comment ok ∈ t.deeds →
    .posted d' credential comment ok ∈ s.deeds
  kept : ∀ e ∈ s.deeds, e ∈ t.deeds

/-- The decision's body has been handed to the client. -/
def Desk.posted (s : Desk) (d : DecisionId) : Prop :=
  ∃ credential comment ok, .posted d credential comment ok ∈ s.deeds

section
variable {cfg : CommandSettings} {w : Nat → Moment} {client : Client} {d : DecisionId}
  {repo actor body : String} {prNumber : Int} {s t : Desk} {row new : ReviewDecision}

theorem Confined.refl (s : Desk) : Confined d s s := ⟨fun _ _ => rfl, fun _ _ _ _ _ h => h, fun _ h => h⟩

theorem Confined.trans (s t v : Desk) (h : Confined d s t) (h' : Confined d t v) : Confined d s v :=
  ⟨fun i hi => (h'.rows i hi).trans (h.rows i hi),
    fun i credential comment ok hi hmem =>
      h.posted i credential comment ok hi (h'.posted i credential comment ok hi hmem),
    fun e he => h'.kept e (h.kept e he)⟩

theorem send_final (w : Nat → Moment) (client : Client) (s : Desk) (comment : Comment)
    (deed : Bool → Deed) : ∃ ok,
    final (send w client comment deed) s = { s with deeds := deed ok :: s.deeds } := by
  unfold final send
  dsimp only
  split <;> rename_i heq <;> split at heq <;> cases heq <;> exact ⟨_, rfl⟩

theorem send_confined (comment : Comment) :
    Keeps (Confined d) (send w client comment (.posted d client.token comment)) := by
  intro s
  obtain ⟨ok, heq⟩ := send_final w client s comment (.posted d client.token comment)
  rw [heq]
  refine ⟨fun _ _ => rfl, fun i credential found ok' hi hmem => ?_, fun e he => List.mem_cons_of_mem _ he⟩
  obtain hnew | hold := List.mem_cons.mp hmem
  · cases hnew
    exact absurd rfl hi
  · exact hold

theorem sendReply_quiet : Keeps Quiet (sendReply w client repo prNumber body) := by
  refine Keeps.bind Quiet.trans (fun s => ?_) fun _ => Keeps.pure Quiet.refl _
  obtain ⟨ok, heq⟩ := send_final w client s ⟨.str repo, prNumber, body⟩
    (.replied client.token ⟨.str repo, prNumber, body⟩)
  rw [heq]
  exact ⟨rfl, fun _ _ _ _ h => by simpa using h⟩

theorem sendReply_confined : Keeps (Confined d) (sendReply w client repo prNumber body) := by
  refine Keeps.bind Confined.trans (fun s => ?_) fun _ => Keeps.pure Confined.refl _
  obtain ⟨ok, heq⟩ := send_final w client s ⟨.str repo, prNumber, body⟩
    (.replied client.token ⟨.str repo, prNumber, body⟩)
  rw [heq]
  exact ⟨fun _ _ => rfl, fun _ _ _ _ _ h => by simpa using h, fun e he => List.mem_cons_of_mem _ he⟩

theorem store_confined : Keeps (Confined d) (store d row) := fun s =>
  ⟨fun i hi => Function.update_of_ne hi _ _, fun _ _ _ _ _ h => by simpa [final, store] using h,
    fun e he => List.mem_cons_of_mem _ he⟩

theorem perform_confined {claimed : ReviewDecision} :
    Keeps (Confined d) (perform cfg w client d claimed) := by
  refine Keeps.bind Confined.trans (orRaise_keeps Confined.refl _) fun made => ?_
  cases made with
  | some comment => exact send_confined comment
  | none => exact Keeps.pure Confined.refl _

theorem settle_confined {claimed : ReviewDecision} (result : ActionResult) :
    Keeps (Confined d) (settle w client d repo prNumber actor claimed result) := by
  refine Keeps.ite ?_ ?_
  · exact Keeps.bind Confined.trans store_confined fun _ => Keeps.pure Confined.refl _
  · exact Keeps.bind Confined.trans store_confined fun _ =>
      Keeps.bind Confined.trans sendReply_confined fun _ => Keeps.pure Confined.refl _

theorem execute_confined {claimed : ReviewDecision} :
    Keeps (Confined d) (execute cfg w client d repo prNumber actor claimed) :=
  Keeps.bind Confined.trans perform_confined settle_confined

theorem perform_cases (cfg : CommandSettings) (w : Nat → Moment) (client : Client)
    (d : DecisionId) (s : Desk) (claimed : ReviewDecision) :
    (∃ e, perform cfg w client d claimed s = .error (.py e) s) ∨
    perform cfg w client d claimed s = .ok noAction s ∨
    (final (perform cfg w client d claimed) s).posted d := by
  unfold perform
  cases hcomment : claimed.comment cfg.unicode with
  | error e => exact .inl ⟨e, rfl⟩
  | ok made =>
    cases made with
    | none => exact .inr (.inl rfl)
    | some comment =>
      right
      right
      obtain ⟨ok, heq⟩ := send_final w client s comment (.posted d client.token comment)
      have hrun : orRaise (.ok (some comment)) s = .ok (some comment) s := rfl
      rw [final_bind_ok hrun, heq]
      exact ⟨_, _, _, List.mem_cons_self⟩

theorem execute_touches {claimed old : ReviewDecision} (hrow : s.rows d = some claimed)
    (hst : claimed.status = .approved) (hold : old.status.takeable = true) :
    (final (execute cfg w client d repo prNumber actor claimed) s).rows d ≠ some old ∨
      (final (execute cfg w client d repo prNumber actor claimed) s).posted d := by
  have hne : ∀ row : ReviewDecision, row.status.takeable = false → some row ≠ some old := by
    rintro row hrow' heq
    cases heq
    cases hrow'.symm.trans hold
  unfold execute
  obtain ⟨e, heq⟩ | heq | hposted := perform_cases cfg w client d s claimed
  · left
    rw [final_bind_error heq, hrow]
    exact hne claimed (by rw [hst]; rfl)
  · left
    rw [final_bind_ok heq]
    change Function.update s.rows d (some (claimed.markExecuted claimed "")) d ≠ some old
    rw [Function.update_self]
    apply hne
    rw [ReviewDecision.markExecuted_status, hst]
    rfl
  · right
    obtain ⟨credential, comment, ok, hmem⟩ := hposted
    exact ⟨credential, comment, ok, (Keeps.after Confined.refl settle_confined s).kept _ hmem⟩

theorem claimApproval_open (hrow : s.rows d = some row) (hopen : row.status.takeable = true) :
    claimApproval d s = .ok (some { row with status := .approved }, .claimed)
      (final (store d { row with status := .approved }) s) := by
  have hget : (get : Handling Desk) s = .ok s s := rfl
  unfold claimApproval
  rw [bind_of_ok hget]
  cases hst : row.status with
  | pending => simp [hrow, ReviewDecision.claim, ReviewDecision.transition, hst]; rfl
  | failed =>
    simp [hrow, ReviewDecision.claim, ReviewDecision.retry, ReviewDecision.transition, hst]
    rfl
  | approved | executed | rejected =>
    rw [hst] at hopen
    cases hopen

def closedTo : DecisionStatus → Claim
  | .executed => .alreadyExecuted
  | .rejected => .rejected
  | .approved | .pending | .failed => .inProgress

theorem claimApproval_closed (hrow : s.rows d = some row) (hclosed : row.status.takeable = false) :
    claimApproval d s = .ok (some row, closedTo row.status) s := by
  have hget : (get : Handling Desk) s = .ok s s := rfl
  unfold claimApproval
  rw [bind_of_ok hget]
  cases hst : row.status with
  | executed | rejected | approved =>
    simp [hrow, ReviewDecision.claim, ReviewDecision.transition, hst]
    rfl
  | pending | failed =>
    rw [hst] at hclosed
    cases hclosed

theorem approve_open (hrow : s.rows d = some row) (hopen : row.status.takeable = true) :
    Confined d s (final (approve cfg w client d repo prNumber actor) s) ∧
      ((final (approve cfg w client d repo prNumber actor) s).rows d ≠ s.rows d ∨
        (final (approve cfg w client d repo prNumber actor) s).posted d) := by
  have hfinal : final (approve cfg w client d repo prNumber actor) s =
      final (execute cfg w client d repo prNumber actor { row with status := .approved })
        (final (store d { row with status := .approved }) s) := by
    unfold approve
    rw [final_bind_ok (claimApproval_open hrow hopen)]
  rw [hfinal, hrow]
  refine ⟨Confined.trans s _ _ (store_confined s) (execute_confined _), ?_⟩
  exact execute_touches (Function.update_self _ _ _) rfl hopen

theorem approve_closed (hrow : s.rows d = some row) (hclosed : row.status.takeable = false) :
    Quiet s (final (approve cfg w client d repo prNumber actor) s) := by
  unfold approve
  rw [final_bind_ok (claimApproval_closed hrow hclosed)]
  cases hst : row.status with
  | executed | rejected | approved => exact sendReply_quiet s
  | pending | failed =>
    rw [hst] at hclosed
    cases hclosed

theorem rejectPending_open (hrow : s.rows d = some row) (hopen : row.status = .pending) :
    rejectPending d s = .ok (some { row with status := .rejected }, .rejected)
      (final (store d { row with status := .rejected }) s) := by
  have hget : (get : Handling Desk) s = .ok s s := rfl
  unfold rejectPending
  rw [bind_of_ok hget]
  simp [hrow, ReviewDecision.reject, ReviewDecision.transition, hopen]
  rfl

theorem rejectPending_closed (hrow : s.rows d = some row) (hclosed : row.status ≠ .pending) :
    rejectPending d s =
      .ok (some row, if row.status = .executed then .alreadyExecuted else .inProgress) s := by
  have hget : (get : Handling Desk) s = .ok s s := rfl
  unfold rejectPending
  rw [bind_of_ok hget]
  by_cases hexec : row.status = .executed
  · simp [hrow, ReviewDecision.reject, ReviewDecision.transition, hexec]
    rfl
  · simp [hrow, ReviewDecision.reject, ReviewDecision.transition, hclosed, hexec]
    rfl

theorem reject_open (hrow : s.rows d = some row) (hopen : row.status = .pending) :
    Confined d s (final (reject w client d repo prNumber actor) s) ∧
      (final (reject w client d repo prNumber actor) s).rows d ≠ s.rows d := by
  unfold reject
  rw [final_bind_ok (rejectPending_open hrow hopen)]
  refine ⟨store_confined s, ?_⟩
  change Function.update s.rows d (some { row with status := .rejected }) d ≠ s.rows d
  rw [Function.update_self, hrow]
  intro heq
  cases hopen.symm.trans (congrArg (·.status) (Option.some.inj heq)).symm

theorem reject_closed (hrow : s.rows d = some row) (hclosed : row.status ≠ .pending) :
    Quiet s (final (reject w client d repo prNumber actor) s) := by
  unfold reject
  rw [final_bind_ok (rejectPending_closed hrow hclosed)]
  by_cases hexec : row.status = .executed
  · rw [if_pos hexec]
    exact sendReply_quiet s
  · rw [if_neg hexec]
    exact sendReply_quiet s

end

/-- A pending row can be approved or rejected, and a failed one approved again. -/
def Takes (verb : String) (row : ReviewDecision) : Prop :=
  row.status = .pending ∨ (row.status = .failed ∧ verb ≠ "reject")

/-- The request takes this row. -/
structure Reaches (u : Unicode) (rows : DecisionTable) (c : Cleared) (d : DecisionId)
    (row : ReviewDecision) : Prop where
  number : ∃ n, c.request.prNumber.toInt u = .ok n
  verb : c.request.command.verb ≠ "help" ∧ c.request.command.verb ≠ "status"
  decision : c.request.command.decisionId = some d
  stored : rows d = some row
  address : addressable u c.request.repo c.installation row = true
  takes : Takes c.request.command.verb row

def Touched (s t : Desk) (d : DecisionId) : Prop := t.rows d ≠ s.rows d ∨ t.posted d

section
variable {cfg : CommandSettings} {w : Nat → Moment} {db : Database} {configured : Bool}
  {payload : PyVal} {s t : Desk} {c : Cleared} {d : DecisionId}

theorem Quiet.untouched (h : Quiet s t) (hs : ∀ d, ¬ s.posted d) (d : DecisionId) : ¬ Touched s t d := by
  rintro (hrow | ⟨credential, comment, ok, hmem⟩)
  · exact hrow (congrFun h.rows d)
  · exact hs d ⟨credential, comment, ok, h.posted d credential comment ok hmem⟩

theorem Confined.untouched {d' : DecisionId} (h : Confined d s t) (hs : ∀ d, ¬ s.posted d)
    (hne : d' ≠ d) : ¬ Touched s t d' := by
  rintro (hrow | ⟨credential, comment, ok, hmem⟩)
  · exact hrow (h.rows d' hne)
  · exact hs d' ⟨credential, comment, ok, h.posted d' credential comment ok hne hmem⟩

theorem take_cases (cfg : CommandSettings) (w : Nat → Moment) (client : Client)
    (verb repo actor : String) (n : Int) {row : ReviewDecision} (hrow : s.rows d = some row) :
    (Takes verb row ∧
      Confined d s (final (if verb = "reject" then reject w client d repo n actor
        else approve cfg w client d repo n actor) s) ∧
      Touched s (final (if verb = "reject" then reject w client d repo n actor
        else approve cfg w client d repo n actor) s) d) ∨
    (¬ Takes verb row ∧
      Quiet s (final (if verb = "reject" then reject w client d repo n actor
        else approve cfg w client d repo n actor) s)) := by
  by_cases hverb : verb = "reject"
  · rw [if_pos hverb]
    by_cases hpending : row.status = .pending
    · have hopen : Confined d s (final (reject w client d repo n actor) s) ∧
          (final (reject w client d repo n actor) s).rows d ≠ s.rows d := reject_open hrow hpending
      exact .inl ⟨.inl hpending, hopen.1, .inl hopen.2⟩
    · refine .inr ⟨?_, reject_closed hrow hpending⟩
      rintro (htakes | ⟨-, hother⟩)
      · exact hpending htakes
      · exact hother hverb
  · rw [if_neg hverb]
    have htakes : Takes verb row ↔ row.status.takeable = true := by
      simp only [Takes, hverb, ne_eq, not_false_eq_true, and_true]
      cases row.status <;> decide
    rw [htakes]
    cases hopen : row.status.takeable with
    | true =>
      have happroved : Confined d s (final (approve cfg w client d repo n actor) s) ∧
          Touched s (final (approve cfg w client d repo n actor) s) d := approve_open hrow hopen
      exact .inl ⟨rfl, happroved⟩
    | false => exact .inr ⟨Bool.false_ne_true, approve_closed hrow hopen⟩

theorem obey_cases (cfg : CommandSettings) (w : Nat → Moment) (db : Database) (c : Cleared)
    (s : Desk) :
    (∃ d row, Reaches cfg.unicode s.rows c d row ∧ Confined d s (final (obey cfg w db c) s) ∧
      Touched s (final (obey cfg w db c) s) d) ∨
    (Quiet s (final (obey cfg w db c) s) ∧ ∀ d row, ¬ Reaches cfg.unicode s.rows c d row) := by
  unfold obey
  cases hnumber : c.request.prNumber.toInt cfg.unicode with
  | error e =>
    refine .inr ⟨Quiet.refl s, fun d row h => ?_⟩
    obtain ⟨n, hn⟩ := h.number
    cases hnumber.symm.trans hn
  | ok n =>
    have hrun : orRaise (.ok n : Py Int) s = .ok n s := rfl
    rw [final_bind_ok hrun]
    by_cases hhelp : c.request.command.verb = "help"
    · rw [if_pos hhelp]
      exact .inr ⟨sendReply_quiet s, fun d row h => h.verb.1 hhelp⟩
    rw [if_neg hhelp]
    by_cases hstatus : c.request.command.verb = "status"
    · rw [if_pos hstatus]
      exact .inr ⟨sendReply_quiet s, fun d row h => h.verb.2 hstatus⟩
    rw [if_neg hstatus]
    cases hdecision : c.request.command.decisionId with
    | none =>
      refine .inr ⟨sendReply_quiet s, fun d row h => ?_⟩
      cases hdecision.symm.trans h.decision
    | some d =>
      have hlook : decisionFor cfg.unicode d c.request.repo c.installation s =
        .ok ((s.rows d).filter (addressable cfg.unicode c.request.repo c.installation)) s := rfl
      dsimp only
      rw [final_bind_ok hlook]
      cases hfound : (s.rows d).filter (addressable cfg.unicode c.request.repo c.installation) with
      | none =>
        refine .inr ⟨sendReply_quiet s, fun d' row h => ?_⟩
        cases hdecision.symm.trans h.decision
        cases hfound.symm.trans (Option.filter_eq_some_iff.mpr ⟨h.stored, h.address⟩)
      | some row =>
        obtain ⟨hrow, haddress⟩ := Option.filter_eq_some_iff.mp hfound
        obtain ⟨htakes, hconfined, htouched⟩ | ⟨hnot, hquiet⟩ :=
          take_cases cfg w c.client c.request.command.verb c.request.repo c.request.actor n hrow
        · exact .inl ⟨d, row, ⟨⟨n, hnumber⟩, ⟨hhelp, hstatus⟩, hdecision, hrow, haddress, htakes⟩,
            hconfined, htouched⟩
        · refine .inr ⟨hquiet, fun d' row' h => hnot ?_⟩
          cases hdecision.symm.trans h.decision
          cases hrow.symm.trans h.stored
          exact h.takes

theorem sanctioned_unique {auth : AppAuth} {c' : Cleared} {token : InstallationToken}
    {permission : String} (h : clear cfg w db configured payload (db.desk auth) = .ok (.ok c) t)
    (h' : Sanctioned cfg w db configured payload auth c' token permission) : c' = c := by
  obtain ⟨auth', heq⟩ := clear_of (s := db.desk auth) h'
  cases h.symm.trans heq
  rfl

/-- The desk after a delivery. -/
def afterComment (cfg : CommandSettings) (w : Nat → Moment) (db : Database) (configured : Bool)
    (payload : PyVal) (auth : AppAuth) : Desk :=
  final (handleIssueComment cfg w db configured payload) (db.desk auth)

theorem handle_cases {auth : AppAuth} (ht : afterComment cfg w db configured payload auth = t) :
    (∃ c token permission d row, Sanctioned cfg w db configured payload auth c token permission ∧
      Reaches cfg.unicode db.decisions.rows c d row ∧ Confined d (db.desk auth) t ∧
      Touched (db.desk auth) t d ∧
      .asked token c.request.repo c.request.actor permission ∈ t.deeds) ∨
    (Quiet (db.desk auth) t ∧ ∀ c token permission d row,
      Sanctioned cfg w db configured payload auth c token permission →
        ¬ Reaches cfg.unicode db.decisions.rows c d row) := by
  subst ht
  have hquiet : Quiet (db.desk auth) (final (clear cfg w db configured payload) (db.desk auth)) :=
    (clear_silent _).quiet
  unfold afterComment handleIssueComment
  cases hclear : clear cfg w db configured payload (db.desk auth) with
  | error e t =>
    right
    rw [final_bind_error hclear]
    unfold final at hquiet
    rw [hclear] at hquiet
    refine ⟨hquiet, fun c token permission d row h _ => ?_⟩
    obtain ⟨auth', heq⟩ := clear_of (s := db.desk auth) h
    cases hclear.symm.trans heq
  | ok found t =>
    rw [final_bind_ok hclear]
    cases found with
    | error result =>
      right
      unfold final at hquiet
      rw [hclear] at hquiet
      refine ⟨hquiet, fun c token permission d row h _ => ?_⟩
      obtain ⟨auth', heq⟩ := clear_of (s := db.desk auth) h
      cases hclear.symm.trans heq
    | ok c =>
      obtain ⟨token, permission, auth', hsanctioned, rfl⟩ := clear_ok hclear
      obtain ⟨d, row, hreaches, hconfined, htouched⟩ | ⟨hrest, hnone⟩ :=
        obey_cases cfg w db c ⟨auth', (db.desk auth).rows,
          .asked token c.request.repo c.request.actor permission :: (db.desk auth).deeds⟩
      · have hfirst : Confined d (db.desk auth) ⟨auth', (db.desk auth).rows,
            .asked token c.request.repo c.request.actor permission :: (db.desk auth).deeds⟩ :=
          ⟨fun _ _ => rfl, fun _ _ _ _ _ h => by simpa using h, fun e he => List.mem_cons_of_mem _ he⟩
        exact .inl ⟨c, token, permission, d, row, hsanctioned, hreaches,
          Confined.trans _ _ _ hfirst hconfined, htouched, hconfined.kept _ List.mem_cons_self⟩
      · unfold final at hquiet
        rw [hclear] at hquiet
        refine .inr ⟨Quiet.trans _ _ _ hquiet hrest, fun c' token' permission' d row h => ?_⟩
        rw [sanctioned_unique hclear h]
        exact hnone d row

theorem Sanctioned.unique {auth : AppAuth} {c' : Cleared} {token token' : InstallationToken}
    {permission permission' : String}
    (h : Sanctioned cfg w db configured payload auth c token permission)
    (h' : Sanctioned cfg w db configured payload auth c' token' permission') : c' = c := by
  obtain ⟨auth', heq⟩ := clear_of (s := db.desk auth) h
  exact sanctioned_unique heq h'

theorem Asks.command_unique {u : Unicode} {request request' : Request} (h : Asks u payload request)
    (h' : Asks u payload request') : request'.command = request.command := by
  obtain ⟨comment, body, line, hcomment, hbody, hline, hparse⟩ := h.command
  obtain ⟨comment', body', line', hcomment', hbody', hline', hparse'⟩ := h'.command
  cases hcomment.symm.trans hcomment'
  cases hbody.symm.trans hbody'
  cases hline.symm.trans hline'
  exact (Option.some.inj (hparse.symm.trans hparse')).symm

structure Authorized (cfg : CommandSettings) (w : Nat → Moment) (db : Database) (payload : PyVal)
    (t : Desk) (d : DecisionId) (request : Request) (i : Int) (token : InstallationToken)
    (permission : String) (row : ReviewDecision) : Prop where
  asks : Asks cfg.unicode payload request
  command : request.command = ⟨"approve", some d⟩ ∨ request.command = ⟨"reject", some d⟩
  installation : request.installationId.toInt cfg.unicode = .ok i
  active : (db.tenants.getActive i).isSome = true
  asked : .asked token request.repo request.actor permission ∈ t.deeds
  minted : token.installationId = i
  answer : AppAuth.readPermission cfg.unicode ((w 1).permission token request.repo request.actor) =
    .ok permission
  permitted : permission ∈ approverPermissions
  stored : db.decisions.rows d = some row
  owner : row.installationId = some i
  repository : cfg.unicode.lower row.repo = cfg.unicode.lower request.repo

/-- A row that the delivery has changed or posted is its own, on the authority of an
approver, and no other row is touched. -/
def OnAuthority (cfg : CommandSettings) (w : Nat → Moment) (db : Database) (configured : Bool)
    (payload : PyVal) (auth : AppAuth) : Prop :=
  ∀ d, Touched (db.desk auth) (afterComment cfg w db configured payload auth) d →
    (∃ request i token permission row, Authorized cfg w db payload
      (afterComment cfg w db configured payload auth) d request i token permission row) ∧
    ∀ d', d' ≠ d → ¬ Touched (db.desk auth) (afterComment cfg w db configured payload auth) d'

/-- Whatever the payload, the database and GitHub's answers, a delivery acts on authority
exactly if it does not reach a row with a long-s "status". -/
theorem comment_authorization {cfg : CommandSettings} {w : Nat → Moment} {db : Database}
    {configured : Bool} {payload : PyVal} {auth : AppAuth} :
    OnAuthority cfg w db configured payload auth ↔
    ¬ ∃ c token permission d row, Sanctioned cfg w db configured payload auth c token permission ∧
      Reaches cfg.unicode db.decisions.rows c d row ∧ c.request.command.verb ∈ longStatus := by
  have hnothing : ∀ d, ¬ (db.desk auth).posted d := by
    rintro d ⟨credential, comment, ok, hmem⟩
    cases hmem
  obtain ⟨c, token, permission, d, row, hsanctioned, hreaches, hconfined, htouched, hasked⟩ |
    ⟨hquiet, hnone⟩ := handle_cases (rfl : afterComment cfg w db configured payload auth = _)
  · have hasks := readPayload_asks hsanctioned.read
    constructor
    · rintro hall ⟨c', token', permission', d', row', hs', hr', hlong⟩
      obtain rfl := Sanctioned.unique hsanctioned hs'
      obtain ⟨⟨request, i, token, permission, row, hauthorized⟩, -⟩ := hall d htouched
      rw [Asks.command_unique hauthorized.asks hasks] at hlong
      obtain hcommand | hcommand := hauthorized.command <;> rw [hcommand] at hlong
      · exact absurd hlong (by decide : "approve" ∉ longStatus)
      · exact absurd hlong (by decide : "reject" ∉ longStatus)
    · intro hno d' htouched'
      obtain rfl : d' = d := by
        by_contra hne
        exact hconfined.untouched hnothing hne htouched'
      refine ⟨⟨c.request, c.installation, token, permission, row, ?_⟩,
        fun i hi => hconfined.untouched hnothing hi⟩
      obtain ⟨auth₁, auth₂, hask, -⟩ := hsanctioned.asked
      obtain ⟨hminted, hanswer⟩ := permission_own hask
      have haddress := hreaches.address
      simp only [addressable, Bool.and_eq_true, decide_eq_true_eq] at haddress
      refine ⟨hasks, ?_, hsanctioned.installation, hsanctioned.active, hasked, hminted, hanswer,
        hsanctioned.permitted, hreaches.stored, haddress.2, haddress.1⟩
      obtain ⟨-, -, line, -, -, -, hparse⟩ := hasks.command
      have hcommand : c.request.command = ⟨c.request.command.verb, some d'⟩ := by
        rw [← hreaches.decision]
      rw [hcommand] at hparse
      obtain hverb | hverb | hlong := parseLine_verb hparse
      · exact .inl (by rw [hcommand, hverb])
      · exact .inr (by rw [hcommand, hverb])
      · exact absurd ⟨c, token, permission, d', row, hsanctioned, hreaches, hlong⟩ hno
  · refine iff_of_true (fun d htouched => absurd htouched (hquiet.untouched hnothing d)) ?_
    rintro ⟨c, token, permission, d, row, hsanctioned, hreaches, -⟩
    exact hnone c token permission d row hsanctioned hreaches

end

def CommandSettings.live : CommandSettings := { unicode := .ascii, githubDryRun := false }

/-- GitHub mints tokens, calls everybody an administrator and accepts every comment. -/
def friendly : Moment where
  now := 0
  parseExpiry _ := .ok 3600
  mint _ := .ok ⟨201, "", .ok (.dict [("token", .str "ghs_1")])⟩
  repoInstallation _ := .ok ⟨200, "", .ok (.dict [("id", .int 5)])⟩
  permission _ _ _ := .ok ⟨200, "", .ok (.dict [("permission", .str "admin")])⟩
  comment _ _ := .answered Routing.posted

def queuedReview : ReviewDecision where
  dedupKey := "acme/api|7|c0ffee|comment_review"
  repo := "acme/api"
  prNumber := 7
  commitSha := "c0ffee"
  installationId := some 5
  action := "comment_review"
  risk := .str "high"
  reason := .str "elevated_risk_needs_approval"
  title := "Review held for maintainer approval"
  body := "## Review"
  status := .pending

/-- One queued review of the installation 5, with the id 42. -/
def Database.small : Database where
  tenants := (Installations.empty.insert { installationId := 5 }).getD .empty
  decisions := {
    rows := only 42 queuedReview
    nextId := 43
    rows_lt := by
      intro d row h
      obtain ⟨rfl, -⟩ := only_eq_some.mp h
      decide
    key_unique := by
      intro d d' row row' h h' _
      obtain ⟨rfl, -⟩ := only_eq_some.mp h
      obtain ⟨rfl, -⟩ := only_eq_some.mp h'
      rfl }
  createdAt _ := 0

/-- A comment on the pull request of the queued review. -/
def commentPayload (installation : Int) (body login : String) : PyVal :=
  .dict [
    ("action", .str "created"),
    ("issue", .dict [("number", .int 7), ("pull_request", .dict [("url", .str "x")])]),
    ("comment", .dict [("body", .str body), ("user", .dict [("login", .str login)])]),
    ("repository", .dict [("full_name", .str "Acme/API")]),
    ("installation", .dict [("id", .int installation)])]

/-- `/autopr ſtatus 42` is not taken for a status, so it approves. -/
theorem long_status_approves :
    outcome (handleIssueComment .live (fun _ => friendly) .small true
        (commentPayload 5 "/autopr ſtatus 42" "mona")) (Database.small.desk .new) =
      .ok (.executed 42 "https://github.com/1" "mona") ∧
    ¬ OnAuthority .live (fun _ => friendly) .small true
      (commentPayload 5 "/autopr ſtatus 42" "mona") .new := by
  refine ⟨by decide, fun hall => ?_⟩
  have htouched : ((afterComment .live (fun _ => friendly) .small true
      (commentPayload 5 "/autopr ſtatus 42" "mona") .new).rows 42).map (·.status) ≠
      ((Database.small.desk .new).rows 42).map (·.status) := by decide
  obtain ⟨⟨request, i, token, permission, row, h⟩, -⟩ :=
    hall 42 (.inl fun heq => htouched (congrArg _ heq))
  have hread : ∃ request', readPayload .ascii (commentPayload 5 "/autopr ſtatus 42" "mona") =
      .ok (.ok request') ∧ request'.command = ⟨"ſtatus", some 42⟩ := ⟨_, rfl, rfl⟩
  obtain ⟨request', hrequest, hcommand⟩ := hread
  have hsame := Asks.command_unique (readPayload_asks hrequest) h.asks
  rw [hcommand] at hsame
  obtain hverb | hverb := h.command <;> rw [hsame] at hverb <;> revert hverb <;> decide

end AutoPR.Commands
