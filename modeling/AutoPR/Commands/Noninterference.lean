import AutoPR.Commands.Authorization

/-! What a comment can learn. Two databases that agree on the tenant and on its rows of the
repository give the same answer, the same replies and the same effects; and without the
permission the decisions are not read at all. -/
namespace AutoPR.Commands
open Python UnitOfWork Routing Tenancy Relational

structure SameOutside (s t : Desk) : Prop where
  auth : s.auth = t.auth
  deeds : s.deeds = t.deeds

def SameRows (u : Unicode) (repo : String) (i : Int) (rows rows' : DecisionTable) : Prop :=
  ∀ d, (rows d).filter (addressable u repo i) = (rows' d).filter (addressable u repo i)

structure Twin (u : Unicode) (repo : String) (i : Int) (s t : Desk) : Prop extends SameOutside s t where
  rows : SameRows u repo i s.rows t.rows

/-- Databases that agree on what the tenant has in the repository. -/
structure SameTenant (u : Unicode) (repo : String) (i : Int) (db db' : Database) : Prop where
  tenant : db.tenants.get i = db'.tenants.get i
  rows : SameRows u repo i db.decisions.rows db'.decisions.rows
  createdAt : ∀ d row, db.decisions.rows d = some row → addressable u repo i row = true →
    db.createdAt d = db'.createdAt d

section
variable {cfg : CommandSettings} {w : Nat → Moment} {db db' : Database} {configured : Bool}
  {payload : PyVal} {u : Unicode} {repo : String} {i : Int}

theorem orRaise_agrees {α : Type} {R : Desk → Desk → Prop} (x : Py α) :
    Agrees R R (orRaise x) (orRaise x) := by
  cases x with
  | ok a => exact Agrees.pure a
  | error e => exact Agrees.throw _

theorem askPermission_agrees (login : String) :
    Agrees SameOutside SameOutside (askPermission u w i repo login)
      (askPermission u w i repo login) := by
  rintro s t ⟨hauth, hdeeds⟩
  unfold askPermission
  rw [hauth, hdeeds]
  split
  · exact .ok _ ⟨rfl, rfl⟩
  · exact .ok _ ⟨rfl, rfl⟩
  · exact .error _ ⟨rfl, rfl⟩

theorem makeClient_agrees :
    Agrees SameOutside SameOutside (makeClient cfg w i) (makeClient cfg w i) := by
  rintro s t ⟨hauth, hdeeds⟩
  unfold makeClient
  rw [hauth]
  split
  · exact .ok _ ⟨rfl, hdeeds⟩
  · exact .error _ ⟨rfl, hdeeds⟩

theorem clear_agrees (h : ∀ request i, readPayload cfg.unicode payload = .ok (.ok request) →
    request.installationId.toInt cfg.unicode = .ok i → db.tenants.get i = db'.tenants.get i) :
    Agrees SameOutside SameOutside (clear cfg w db configured payload)
      (clear cfg w db' configured payload) := by
  have hactive : ∀ request i, readPayload cfg.unicode payload = .ok (.ok request) →
      request.installationId.toInt cfg.unicode = .ok i →
      db.tenants.getActive i = db'.tenants.getActive i := by
    intro request i hread hint
    simp only [Installations.getActive, h request i hread hint]
  unfold clear
  refine Agrees.ite (Agrees.pure _) ?_
  cases hread : readPayload cfg.unicode payload with
  | error e => exact Agrees.throw _
  | ok found =>
    cases found with
    | error reason => exact Agrees.pure _
    | ok request =>
      refine Agrees.ite (Agrees.pure _) ?_
      cases hint : request.installationId.toInt cfg.unicode with
      | error e => exact Agrees.throw _
      | ok i =>
        simp only [orRaise, pure_bind]
        rw [hactive request i hread hint]
        refine Agrees.ite (Agrees.pure _) ?_
        refine Agrees.bind (askPermission_agrees _) (fun _ _ hst => hst) fun answer => ?_
        cases answer with
        | none => exact Agrees.pure _
        | some permission =>
          refine Agrees.ite ?_ ?_
          · exact Agrees.bind (orRaise_agrees _) (fun _ _ hst => hst) fun _ => Agrees.pure _
          · exact Agrees.bind makeClient_agrees (fun _ _ hst => hst) fun _ => Agrees.pure _

theorem Twin.add {s t : Desk} (h : Twin u repo i s t) (deed : Deed) :
    Twin u repo i { s with deeds := deed :: s.deeds } { t with deeds := deed :: t.deeds } :=
  ⟨⟨h.auth, congrArg (deed :: ·) h.deeds⟩, h.rows⟩

theorem send_agrees (client : Client) (comment : Comment) (deed : Bool → Deed) :
    Agrees (Twin u repo i) (Twin u repo i) (send w client comment deed)
      (send w client comment deed) := by
  intro s t h
  have hadd := fun ok => h.add (deed ok)
  unfold send
  rw [h.deeds] at hadd ⊢
  dsimp only
  split
  · exact .ok _ (hadd _)
  · exact .error _ (hadd _)

theorem sendReply_agrees (client : Client) (target : String) (n : Int) (body : String) :
    Agrees (Twin u repo i) (Twin u repo i) (sendReply w client target n body)
      (sendReply w client target n body) :=
  Agrees.bind (send_agrees _ _ _) (fun _ _ h => h) fun _ => Agrees.pure _

theorem store_agrees (d : DecisionId) (row : ReviewDecision) :
    Agrees (Twin u repo i) (Twin u repo i) (store d row) (store d row) := by
  intro s t h
  refine .ok () ⟨⟨h.auth, congrArg (Deed.wrote d row :: ·) h.deeds⟩, fun d' => ?_⟩
  by_cases hd : d' = d
  · subst hd
    simp only [Function.update_self]
  · simp only [Function.update_of_ne hd]
    exact h.rows d'

theorem settle_agrees (client : Client) (d : DecisionId) (target : String) (n : Int)
    (actor : String) (claimed : ReviewDecision) (result : ActionResult) :
    Agrees (Twin u repo i) (Twin u repo i) (settle w client d target n actor claimed result)
      (settle w client d target n actor claimed result) := by
  refine Agrees.ite ?_ ?_
  · exact Agrees.bind (store_agrees _ _) (fun _ _ h => h) fun _ => Agrees.pure _
  · exact Agrees.bind (store_agrees _ _) (fun _ _ h => h) fun _ =>
      Agrees.bind (sendReply_agrees _ _ _ _) (fun _ _ h => h) fun _ => Agrees.pure _

theorem execute_agrees (client : Client) (d : DecisionId) (target : String) (n : Int)
    (actor : String) (claimed : ReviewDecision) :
    Agrees (Twin u repo i) (Twin u repo i) (execute cfg w client d target n actor claimed)
      (execute cfg w client d target n actor claimed) := by
  refine Agrees.bind (Agrees.bind (orRaise_agrees _) (fun _ _ h => h) fun made => ?_)
    (fun _ _ h => h) fun result => settle_agrees _ _ _ _ _ _ _
  cases made with
  | some comment => exact send_agrees _ _ _
  | none => exact Agrees.pure _

def TwinAt (u : Unicode) (repo : String) (i : Int) (d : DecisionId) (s t : Desk) : Prop :=
  Twin u repo i s t ∧ s.rows d = t.rows d

theorem claimApproval_agrees (d : DecisionId) :
    Agrees (TwinAt u repo i d) (Twin u repo i) (claimApproval d) (claimApproval d) := by
  rintro s t ⟨h, hd⟩
  have hstore : ∀ row claim, Agrees (Twin u repo i) (Twin u repo i)
      (do store d row; return (some row, claim) : Handling (Option ReviewDecision × Claim))
      (do store d row; return (some row, claim)) :=
    fun row claim => Agrees.bind (store_agrees d row) (fun _ _ h => h) fun _ => Agrees.pure _
  unfold claimApproval
  rw [get_bind, get_bind, hd]
  cases t.rows d with
  | none => exact Agrees.pure _ s t h
  | some row =>
    dsimp only
    cases row.claim with
    | some claimed => exact hstore claimed .claimed s t h
    | none =>
      cases row.status with
      | failed =>
        dsimp only
        cases row.retry with
        | some claimed => exact hstore claimed .claimed s t h
        | none => exact Agrees.pure _ s t h
      | _ => exact Agrees.pure _ s t h

theorem rejectPending_agrees (d : DecisionId) :
    Agrees (TwinAt u repo i d) (Twin u repo i) (rejectPending d) (rejectPending d) := by
  rintro s t ⟨h, hd⟩
  unfold rejectPending
  rw [get_bind, get_bind, hd]
  cases t.rows d with
  | none => exact Agrees.pure _ s t h
  | some row =>
    dsimp only
    cases row.reject with
    | some rejected =>
      exact Agrees.bind (store_agrees d rejected) (fun _ _ h => h) (fun _ => Agrees.pure _) s t h
    | none => exact Agrees.ite (Agrees.pure _) (Agrees.pure _) s t h

theorem approve_agrees (client : Client) (d : DecisionId) (target : String) (n : Int)
    (actor : String) :
    Agrees (TwinAt u repo i d) (Twin u repo i) (approve cfg w client d target n actor)
      (approve cfg w client d target n actor) := by
  refine Agrees.bind (claimApproval_agrees d) (fun _ _ h => h) fun answer => ?_
  obtain ⟨found, claim⟩ := answer
  cases found with
  | none => exact Agrees.pure _
  | some row =>
    cases claim with
    | alreadyExecuted | rejected | inProgress => exact sendReply_agrees _ _ _ _
    | claimed | notFound => exact execute_agrees _ _ _ _ _ _

theorem reject_agrees (client : Client) (d : DecisionId) (target : String) (n : Int)
    (actor : String) :
    Agrees (TwinAt u repo i d) (Twin u repo i) (reject w client d target n actor)
      (reject w client d target n actor) := by
  refine Agrees.bind (rejectPending_agrees d) (fun _ _ h => h) fun answer => ?_
  obtain ⟨found, claim⟩ := answer
  cases found with
  | none => exact Agrees.pure _
  | some row =>
    cases claim with
    | alreadyExecuted | inProgress => exact sendReply_agrees _ _ _ _
    | claimed | notFound | rejected => exact Agrees.pure _

end

theorem filterMap_range {α : Type} {f : Nat → Option α} {n m : Nat} (hn : ∀ d, n ≤ d → f d = none)
    (hm : ∀ d, m ≤ d → f d = none) : (List.range n).filterMap f = (List.range m).filterMap f := by
  wlog hle : n ≤ m generalizing n m
  · exact (this hm hn (Nat.le_of_not_le hle)).symm
  obtain ⟨k, rfl⟩ := Nat.exists_eq_add_of_le hle
  rw [List.range_add, List.filterMap_append, List.filterMap_map]
  have hrest : (List.range k).filterMap (f ∘ fun x => n + x) = [] :=
    List.filterMap_eq_nil_iff.mpr fun d _ => hn (n + d) (Nat.le_add_right n d)
  rw [hrest, List.append_nil]

section
variable {u : Unicode} {repo : String} {i : Int} {db db' : Database}

theorem SameRows.stored {rows rows' : DecisionTable} (h : SameRows u repo i rows rows')
    {d : DecisionId} {row : ReviewDecision} (hrow : rows d = some row)
    (haddress : addressable u repo i row = true) : rows' d = some row :=
  (Option.filter_eq_some_iff.mp ((h d).symm.trans (Option.filter_eq_some_iff.mpr ⟨hrow, haddress⟩))).1

theorem SameTenant.symm (h : SameTenant u repo i db db') : SameTenant u repo i db' db where
  tenant := h.tenant.symm
  rows d := (h.rows d).symm
  createdAt d row hrow haddress :=
    (h.createdAt d row (SameRows.stored (fun d => (h.rows d).symm) hrow haddress) haddress).symm

def pendingRow (db : Database) (repo : String) (i : Int) (d : DecisionId) :
    Option (Time × DecisionId × ReviewDecision) :=
  ((db.decisions.rows d).filter fun row =>
    row.status = .pending && row.installationId = some i && row.repo = repo).map fun row =>
      (db.createdAt d, d, row)

theorem pendingRow_le (h : SameTenant u repo i db db') {d : DecisionId}
    {found : Time × DecisionId × ReviewDecision} (hfound : pendingRow db repo i d = some found) :
    pendingRow db' repo i d = some found := by
  obtain ⟨row, hrow, rfl⟩ := Option.map_eq_some_iff.mp hfound
  obtain ⟨hrow, hselected⟩ := Option.filter_eq_some_iff.mp hrow
  have hfields := hselected
  simp only [Bool.and_eq_true, decide_eq_true_eq] at hfields
  have haddress : addressable u repo i row = true := by
    simp [addressable, hfields.1.2, hfields.2]
  have hrow' := h.rows.stored hrow haddress
  rw [pendingRow, Option.filter_eq_some_iff.mpr ⟨hrow', hselected⟩, Option.map_some,
    h.createdAt d row hrow haddress]

theorem pendingRow_eq (h : SameTenant u repo i db db') : pendingRow db repo i = pendingRow db' repo i := by
  funext d
  apply Option.ext
  intro found
  exact ⟨pendingRow_le h, pendingRow_le h.symm⟩

theorem pendingRow_none {d : DecisionId} (hd : db.decisions.nextId ≤ d) : pendingRow db repo i d = none := by
  unfold pendingRow
  cases hrow : db.decisions.rows d with
  | none => rfl
  | some row => exact absurd (db.decisions.rows_lt d row hrow) (Nat.not_lt.mpr hd)

theorem pendingForRepo_eq (h : SameTenant u repo i db db') :
    pendingForRepo db db.decisions.rows repo i = pendingForRepo db' db'.decisions.rows repo i := by
  have hsame : (List.range db.decisions.nextId).filterMap (pendingRow db repo i) =
      (List.range db'.decisions.nextId).filterMap (pendingRow db' repo i) := by
    rw [pendingRow_eq h]
    refine filterMap_range (fun d hd => ?_) fun d hd => pendingRow_none hd
    rw [← pendingRow_eq h]
    exact pendingRow_none hd
  exact congrArg (fun pending => ((pending.insertionSort fun p q => p.1 ≤ q.1).take 10).map (·.2)) hsame

end

section
variable {cfg : CommandSettings} {w : Nat → Moment} {db db' : Database} {configured : Bool}
  {payload : PyVal} {c : Cleared}

def Fresh (db db' : Database) (s t : Desk) : Prop :=
  SameOutside s t ∧ s.rows = db.decisions.rows ∧ t.rows = db'.decisions.rows

theorem obey_agrees (h : SameTenant cfg.unicode c.request.repo c.installation db db') :
    Agrees (Fresh db db') (Twin cfg.unicode c.request.repo c.installation) (obey cfg w db c)
      (obey cfg w db' c) := by
  rintro s t ⟨houtside, hs, ht⟩
  have htwin : Twin cfg.unicode c.request.repo c.installation s t := by
    refine ⟨houtside, ?_⟩
    rw [hs, ht]
    exact h.rows
  unfold obey
  cases hnumber : c.request.prNumber.toInt cfg.unicode with
  | error e => exact .error _ htwin
  | ok n =>
    have hrun : ∀ desk, orRaise (.ok n : Py Int) desk = .ok n desk := fun _ => rfl
    rw [bind_of_ok (hrun s), bind_of_ok (hrun t)]
    by_cases hhelp : c.request.command.verb = "help"
    · rw [if_pos hhelp, if_pos hhelp]
      exact sendReply_agrees _ _ _ _ s t htwin
    rw [if_neg hhelp, if_neg hhelp]
    by_cases hstatus : c.request.command.verb = "status"
    · rw [if_pos hstatus, if_pos hstatus, get_bind, get_bind, hs, ht, pendingForRepo_eq h]
      exact sendReply_agrees _ _ _ _ s t htwin
    rw [if_neg hstatus, if_neg hstatus]
    cases c.request.command.decisionId with
    | none => exact sendReply_agrees _ _ _ _ s t htwin
    | some d =>
      have hfound := htwin.rows d
      have hlook : ∀ desk, decisionFor cfg.unicode d c.request.repo c.installation desk =
        .ok ((desk.rows d).filter (addressable cfg.unicode c.request.repo c.installation)) desk :=
        fun _ => rfl
      dsimp only
      rw [bind_of_ok (hlook s), bind_of_ok (hlook t), hfound]
      cases hrow : (t.rows d).filter (addressable cfg.unicode c.request.repo c.installation) with
      | none => exact sendReply_agrees _ _ _ _ s t htwin
      | some row =>
        have hat : TwinAt cfg.unicode c.request.repo c.installation d s t :=
          ⟨htwin, (Option.filter_eq_some_iff.mp (hfound.trans hrow)).1.trans
            (Option.filter_eq_some_iff.mp hrow).1.symm⟩
        exact Agrees.ite (reject_agrees _ _ _ _ _) (approve_agrees _ _ _ _ _) s t hat

theorem clear_fresh (h : ∀ request i, readPayload cfg.unicode payload = .ok (.ok request) →
    request.installationId.toInt cfg.unicode = .ok i → db.tenants.get i = db'.tenants.get i) :
    Agrees (Fresh db db') (Fresh db db') (clear cfg w db configured payload)
      (clear cfg w db' configured payload) :=
  Agrees.strengthen (clear_agrees h) fun s t hrows =>
    ⟨(clear_silent s).rows.trans hrows.1, (clear_silent t).rows.trans hrows.2⟩

theorem handle_agrees (h : ∀ request i, readPayload cfg.unicode payload = .ok (.ok request) →
    request.installationId.toInt cfg.unicode = .ok i → SameTenant cfg.unicode request.repo i db db') :
    Agrees (Fresh db db') SameOutside (handleIssueComment cfg w db configured payload)
      (handleIssueComment cfg w db' configured payload) := by
  refine Agrees.bind_of (clear_fresh fun request i hread hint => (h request i hread hint).tenant)
    (fun _ _ hst => hst.1) fun found s t hrun => ?_
  cases found with
  | error result => exact (Agrees.pure result).mono (fun _ _ hst => hst) fun _ _ hst => hst.1
  | ok c =>
    obtain ⟨token, permission, auth, hsanctioned, -⟩ := clear_ok hrun
    exact (obey_agrees (h c.request c.installation hsanctioned.read hsanctioned.installation)).mono
      (fun _ _ hst => hst) fun _ _ hst => hst.toSameOutside

/-- GitHub reports no permission to approve, whichever of the installation's tokens it is
asked with. -/
def Unpermitted (cfg : CommandSettings) (w : Nat → Moment) (payload : PyVal) : Prop :=
  ∀ request i token permission, readPayload cfg.unicode payload = .ok (.ok request) →
    request.installationId.toInt cfg.unicode = .ok i → token.installationId = i →
    AppAuth.readPermission cfg.unicode ((w 1).permission token request.repo request.actor) =
      .ok permission → permission ∉ approverPermissions

theorem Unpermitted.not_cleared {s t : Desk} (h : Unpermitted cfg w payload) :
    clear cfg w db configured payload s ≠ .ok (.ok c) t := by
  intro hrun
  obtain ⟨token, permission, auth, hsanctioned, -⟩ := clear_ok hrun
  obtain ⟨auth₁, auth₂, hask, -⟩ := hsanctioned.asked
  obtain ⟨hminted, hanswer⟩ := permission_own hask
  exact h c.request c.installation token permission hsanctioned.read hsanctioned.installation hminted
    hanswer hsanctioned.permitted

theorem unpermitted_agrees (hnot : Unpermitted cfg w payload)
    (h : ∀ request i, readPayload cfg.unicode payload = .ok (.ok request) →
      request.installationId.toInt cfg.unicode = .ok i → db.tenants.get i = db'.tenants.get i) :
    Agrees SameOutside SameOutside (handleIssueComment cfg w db configured payload)
      (handleIssueComment cfg w db' configured payload) := by
  refine Agrees.bind_of (clear_agrees h) (fun _ _ hst => hst) fun found s t hrun => ?_
  cases found with
  | error result => exact Agrees.pure result
  | ok c => exact absurd hrun hnot.not_cleared

theorem unpermitted_silent (hnot : Unpermitted cfg w payload) :
    Keeps Silent (handleIssueComment cfg w db configured payload) := by
  refine Keeps.bind_of Silent.trans clear_silent fun found s t hrun => ?_
  cases found with
  | error result => exact Keeps.pure Silent.refl result
  | ok c => exact absurd hrun hnot.not_cleared

/-- The deliveries end alike: the same dict or exception, the same calls and the same
writes, in the same order. -/
def SameRun (cfg : CommandSettings) (w : Nat → Moment) (configured : Bool) (payload : PyVal)
    (auth : AppAuth) (db db' : Database) : Prop :=
  outcome (handleIssueComment cfg w db configured payload) (db.desk auth) =
      outcome (handleIssueComment cfg w db' configured payload) (db'.desk auth) ∧
    (afterComment cfg w db configured payload auth).deeds =
      (afterComment cfg w db' configured payload auth).deeds

end

/-- What a delivery comes to is a function of its tenant's row and of that tenant's rows of
the repository; and without an approver's permission it does not depend on the decisions,
and does nothing but ask for the permission. -/
theorem tenant_noninterference {cfg : CommandSettings} {w : Nat → Moment} {configured : Bool}
    {payload : PyVal} {auth : AppAuth} :
    (∀ db db', (∀ request i, readPayload cfg.unicode payload = .ok (.ok request) →
        request.installationId.toInt cfg.unicode = .ok i →
        SameTenant cfg.unicode request.repo i db db') →
      SameRun cfg w configured payload auth db db') ∧
    (Unpermitted cfg w payload → ∀ db db',
      (∀ request i, readPayload cfg.unicode payload = .ok (.ok request) →
        request.installationId.toInt cfg.unicode = .ok i → db.tenants.get i = db'.tenants.get i) →
      SameRun cfg w configured payload auth db db' ∧
      (afterComment cfg w db configured payload auth).rows = db.decisions.rows ∧
      ∀ e ∈ (afterComment cfg w db configured payload auth).deeds, e.isAsked = true) := by
  constructor
  · intro db db' h
    have hagrees : Agrees (Fresh db db') SameOutside (handleIssueComment cfg w db configured payload)
        (handleIssueComment cfg w db' configured payload) := handle_agrees h
    obtain ⟨hend, hdesk⟩ := hagrees.outcome
      (s := db.desk auth) (t := db'.desk auth) ⟨⟨rfl, rfl⟩, rfl, rfl⟩
    exact ⟨hend, hdesk.deeds⟩
  · intro hnot db db' h
    have hagrees : Agrees SameOutside SameOutside (handleIssueComment cfg w db configured payload)
        (handleIssueComment cfg w db' configured payload) := unpermitted_agrees hnot h
    obtain ⟨hend, hdesk⟩ := hagrees.outcome (s := db.desk auth) (t := db'.desk auth) ⟨rfl, rfl⟩
    have hsilent : Silent (db.desk auth) (afterComment cfg w db configured payload auth) :=
      unpermitted_silent hnot _
    refine ⟨⟨hend, hdesk.deeds⟩, hsilent.rows, fun e he => ?_⟩
    obtain hold | hasked := hsilent.deeds e he
    · cases hold
    · exact hasked

/-- The small database, as the installation 6 meets it. -/
def Database.foreign : Database :=
  { Database.small with tenants := (Installations.empty.insert { installationId := 6 }).getD .empty }

def Database.bare : Database := { Database.foreign with decisions := .empty }

/-- GitHub, as it answers about a passer-by. -/
def passerBy : Moment where
  __ := friendly
  permission _ _ _ := .ok ⟨200, "", .ok (.dict [("permission", .str "read")])⟩

/-- Somebody else's decision is answered as one that does not exist, and a passer-by learns
nothing of the decisions. -/
theorem foreign_id_unknown :
    outcome (handleIssueComment .live (fun _ => friendly) .foreign true
        (commentPayload 6 "/autopr approve 42" "eve")) (Database.foreign.desk .new) =
      .ok (.replied "https://github.com/1") ∧
    SameRun .live (fun _ => friendly) true (commentPayload 6 "/autopr approve 42" "eve") .new
      .foreign .bare ∧
    SameRun .live (fun _ => passerBy) true (commentPayload 5 "/autopr approve 42" "eve") .new
      .small { Database.small with decisions := .empty } := by
  refine ⟨by decide, tenant_noninterference.1 _ _ ?_, (tenant_noninterference.2 ?_ _ _ ?_).1⟩
  · intro request i hread hint
    have hasks : readPayload .ascii (commentPayload 6 "/autopr approve 42" "eve") =
        .ok (.ok ⟨⟨"approve", some 42⟩, "eve", "Acme/API", .int 7, .int 6⟩) := rfl
    cases hasks.symm.trans hread
    cases hint
    have hforeign : addressable .ascii "Acme/API" 6 queuedReview = false := by decide
    refine ⟨rfl, fun d => ?_, fun d row hrow haddress => rfl⟩
    change (only 42 queuedReview d).filter _ = none
    unfold only
    split
    · refine Option.filter_eq_none_iff.mpr fun row hrow => ?_
      cases hrow
      simp [CommandSettings.live, hforeign]
    · rfl
  · intro request i token permission hread hint hminted hanswer
    have hread : AppAuth.readPermission .ascii
        (passerBy.permission token request.repo request.actor) = .ok "read" := rfl
    cases hread.symm.trans hanswer
    decide
  · intro request i hread hint
    rfl

end AutoPR.Commands
