import AutoPR.Routing.AutoPath

/-! What `claim_approval` and `reject_pending` answer, against the row. A lost update is
explained by the status that the session then sees: that of its own copy, or of the row as
it is re-read, with "in_progress" for every status that no test names. -/
namespace AutoPR.Routing
open Python UnitOfWork Transition

namespace State

def status (s : State) (d : DecisionId) : Option DecisionStatus := (s.rows d).map (·.status)

/-- Some request has claimed the row, and has recorded no result of it since. -/
def Underway (s : State) (d : DecisionId) : Prop :=
  ∃ q later earlier, s.history d = later ++ (.approved, .human q) :: earlier ∧
    (.executed, .human q) ∉ later ∧ (.failed, .human q) ∉ later

end State

/-- The row of a statement of `claim_approval` or `reject_pending`. -/
def RequestPc.subject : RequestPc → Option DecisionId
  | .claiming _ d _ | .loading d _ | .retrying _ d _ | .rejecting _ d _ | .loadingRejected d _ =>
      some d
  | _ => none

def RequestPc.seeks : RequestPc → Option DecisionId
  | .claiming _ d _ | .loading d false | .retrying _ d _ | .rejecting _ d _
  | .loadingRejected d false => some d
  | _ => none

def RequestPc.approving (d : DecisionId) : RequestPc → Bool
  | .loading i false | .retrying _ i _ => i = d
  | _ => false

def RequestPc.outcome : RequestPc → Option Outcome
  | .replying _ outcome | .answered outcome => some outcome
  | _ => none

def RequestAct.completes : RequestAct → Bool
  | .dbError | .crash => false
  | _ => true

namespace State

def Bears (s : State) (d : DecisionId) (underway : Prop) : Outcome → Prop
  | .inProgress => underway
  | .alreadyExecuted => s.status d = some .executed
  | .wasRejected | .rejected => s.status d = some .rejected
  | _ => True

def Taken (s : State) (q : RequestId) (d : DecisionId) : Prop :=
  s.status d = some .approved ∨ s.status d = some .rejected ∨ (s.requests q).approving d = true

/-- The step of the request answers what is true of the row, and a statement that meets
the row failed takes it, or leads to one that does. -/
structure Straight (s t : State) (underway : DecisionId → Prop) (q : RequestId)
    (act : RequestAct) : Prop where
  answers : ∀ d outcome, (s.requests q).subject = some d →
    (t.requests q).outcome = some outcome → t.Bears d (underway d) outcome
  takes : ∀ d, (s.requests q).seeks = some d → act.completes = true →
    s.status d = some .failed → t.Taken q d

/-- Every decision that the step answers is answered truthfully. -/
def Honest (cfg : Settings) (s : State) : Step → Prop
  | .router _ _ => True
  | .request q act => ∀ t, step cfg s (.request q act) = some t → s.Straight t t.Underway q act

/-- The same, with "in_progress" for an approved row only. -/
def Candid (cfg : Settings) (s : State) : Step → Prop
  | .router _ _ => True
  | .request q act => ∀ t, step cfg s (.request q act) = some t →
      s.Straight t (fun d => t.status d = some .approved) q act

def matched (s : State) (d : DecisionId) (copy : ReviewDecision) : Bool :=
  match copy.status with
  | .failed => true
  | .pending | .approved => s.status d = some .approved
  | .executed => s.status d = some .executed
  | .rejected => s.status d = some .rejected

/-- A statement takes the row, or is explained by a status that the row has: no approval
meets a row that has been reopened in between, no rejection one that is failed, reopened or
rejected, and no comment command holds a copy that has fallen behind. -/
def current (s : State) : Step → Bool
  | .request q .claim =>
      match s.requests q with
      | .claiming _ d (some copy) => s.status d = some .pending || s.matched d copy
      | _ => true
  | .request q .load =>
      match s.requests q with
      | .loading d false => s.status d ≠ some .pending
      | .loadingRejected d true => s.status d = none || s.status d = some .rejected
      | .loadingRejected d false =>
          s.status d = none || s.status d = some .approved || s.status d = some .executed
      | _ => true
  | .request q .retry =>
      match s.requests q with
      | .retrying _ d _ => s.status d = some .failed || s.status d = some .approved
      | _ => true
  | .request q .reject =>
      match s.requests q with
      | .rejecting _ d none => s.status d ≠ some .failed
      | .rejecting _ d (some copy) => s.status d = some .pending ||
          (if copy.status = .executed then s.status d = some .executed
           else s.status d = some .approved)
      | _ => true
  | _ => true

end State

section
variable {cfg : Settings} {s : State} {q : RequestId} {act : RequestAct} {eff : Effect RequestPc}
  {channel : Channel} {d : DecisionId} {copy row new : ReviewDecision} {pc : RequestPc}

@[simp] theorem finish_outcome (channel : Channel) (d : DecisionId) (verb : Verb)
    (outcome : Outcome) : (channel.finish d verb outcome).outcome = some outcome := by
  obtain heq | ⟨comment, heq⟩ := finish_cases channel d verb outcome <;> rw [heq] <;> rfl

@[simp] theorem afterClaimed_outcome (cfg : Settings) (channel : Channel) (d : DecisionId)
    (copy : ReviewDecision) : (afterClaimed cfg channel d copy).outcome = none := by
  obtain ⟨-, heq⟩ | heq := afterClaimed_cases cfg channel d copy <;> rw [heq] <;> rfl

theorem status_of_row (hrow : s.rows d = some row) : s.status d = some row.status :=
  congrArg (Option.map _) hrow

theorem applyRequest_status (hwrite : eff.write d = none) :
    (s.applyRequest q eff).status d = s.status d := by
  unfold State.status
  rw [applyRequest_rows, hwrite, Option.none_or]

theorem applyRequest_status_written (hwrite : eff.write d = some new) :
    (s.applyRequest q eff).status d = some new.status := by
  unfold State.status
  rw [applyRequest_rows, hwrite]
  rfl

theorem lost_iff {source target : DecisionStatus} :
    (s.rows d).bind (·.transition source target) = none ↔ s.status d ≠ some source := by
  unfold State.status ReviewDecision.transition
  cases s.rows d with
  | none => simp
  | some row => by_cases hst : row.status = source <;> simp [hst]

theorem State.Straight.of_subject {t : State} {underway : DecisionId → Prop}
    (hpc : s.requests q = pc) (hsubject : pc.subject = none) (hseeks : pc.seeks = none) :
    s.Straight t underway q act where
  answers d outcome hd := by
    rw [hpc, hsubject] at hd
    cases hd
  takes d hd := by
    rw [hpc, hseeks] at hd
    cases hd

theorem State.Straight.of_row {t : State} {underway : DecisionId → Prop}
    (hpc : s.requests q = pc) (hsubject : pc.subject = some d)
    (hseeks : ∀ i, pc.seeks = some i → i = d)
    (hanswers : ∀ outcome, (t.requests q).outcome = some outcome → t.Bears d (underway d) outcome)
    (htakes : pc.seeks = some d → act.completes = true → s.status d = some .failed → t.Taken q d) :
    s.Straight t underway q act where
  answers i outcome hi := by
    rw [hpc, hsubject] at hi
    cases hi
    exact hanswers outcome
  takes i hi := by
    rw [hpc] at hi
    obtain rfl := hseeks i hi
    exact htakes hi

theorem finish_straight {t : State} (channel : Channel) (verb : Verb) {outcome : Outcome}
    (hpc : t.requests q = channel.finish d verb outcome)
    (hbears : t.Bears d (t.status d = some .approved) outcome) (hfailed : s.status d ≠ some .failed) :
    (∀ o, (t.requests q).outcome = some o → t.Bears d (t.status d = some .approved) o) ∧
    (s.status d = some .failed → t.Taken q d) := by
  constructor
  · intro o ho
    rw [hpc, finish_outcome] at ho
    cases ho
    exact hbears
  · intro hst
    exact absurd hst hfailed

theorem afterLost_straight {t : State} (hpc : t.requests q = afterLost channel d copy)
    (hsame : t.status d = s.status d) (hmatch : s.matched d copy = true) :
    (∀ o, (t.requests q).outcome = some o → t.Bears d (t.status d = some .approved) o) ∧
    (s.status d = some .failed → t.Taken q d) := by
  unfold State.matched at hmatch
  unfold afterLost at hpc
  cases hst : copy.status with
  | failed =>
    rw [hst] at hpc
    dsimp only at hpc
    constructor
    · intro o ho
      rw [hpc] at ho
      cases ho
    · intro _
      right
      right
      rw [hpc]
      exact decide_eq_true rfl
  | executed | rejected | pending | approved =>
    rw [hst] at hpc hmatch
    have hstatus := of_decide_eq_true hmatch
    apply finish_straight channel .approve hpc (hsame.trans hstatus)
    rw [hstatus]
    exact fun heq => by cases heq

theorem lost_rejection {t : State} (channel : Channel)
    (hpc : t.requests q = afterReject channel d copy false) (hsame : t.status d = s.status d)
    (hmatch : if copy.status = .executed then s.status d = some .executed
      else s.status d = some .approved) :
    (∀ o, (t.requests q).outcome = some o → t.Bears d (t.status d = some .approved) o) ∧
    (s.status d = some .failed → t.Taken q d) := by
  simp only [afterReject, Bool.false_eq_true, if_false] at hpc
  by_cases hexecuted : copy.status = .executed
  · rw [if_pos hexecuted] at hpc hmatch
    exact finish_straight channel .reject hpc (hsame.trans hmatch) (by simp [hmatch])
  · rw [if_neg hexecuted] at hpc hmatch
    exact finish_straight channel .reject hpc (hsame.trans hmatch) (by simp [hmatch])

theorem matched_evaluate (s : State) (d : DecisionId) (copy : ReviewDecision) :
    s.matched d (copy.evaluate .pending .approved) = s.matched d copy := by
  unfold State.matched ReviewDecision.evaluate ReviewDecision.transition
  by_cases hst : copy.status = .pending
  · simp [hst]
  · simp [hst]

theorem evaluate_executed (copy : ReviewDecision) :
    (copy.evaluate .pending .rejected).status = .executed ↔ copy.status = .executed := by
  unfold ReviewDecision.evaluate ReviewDecision.transition
  by_cases hst : copy.status = .pending <;> simp [hst]

theorem State.Straight.of_silent {t : State} {underway : DecisionId → Prop}
    (hpc : s.requests q = pc) (hsubject : pc.subject = some d)
    (hseeks : ∀ i, pc.seeks = some i → i = d) (hsilent : (t.requests q).outcome = none)
    (htakes : pc.seeks = some d → s.status d = some .failed → t.Taken q d) :
    s.Straight t underway q act := by
  refine .of_row hpc hsubject hseeks ?_ fun hd _ => htakes hd
  intro outcome ho
  cases hsilent.symm.trans ho

section
variable {t : State}

theorem claimWon_straight {held : Option ReviewDecision}
    (hpc : s.requests q = .claiming channel d held) (hpending : s.status d = some .pending)
    (hself : t.requests q = (claimNext cfg q channel d held true).pc) :
    s.Straight t (fun d => t.status d = some .approved) q act := by
  apply State.Straight.of_silent hpc rfl (fun i hi => (Option.some.inj hi).symm)
  · rw [hself]
    cases held with
    | none => rfl
    | some copy => exact afterClaimed_outcome _ _ _ _
  · intro _ hfailed
    cases hpending.symm.trans hfailed

theorem claimLost_straight {held : Option ReviewDecision}
    (hpc : s.requests q = .claiming channel d held)
    (hmatch : ∀ copy, held = some copy → s.matched d copy = true)
    (hself : t.requests q = (claimNext cfg q channel d held false).pc)
    (hsame : t.status d = s.status d) :
    s.Straight t (fun d => t.status d = some .approved) q act := by
  cases held with
  | none =>
    apply State.Straight.of_silent hpc rfl (fun i hi => (Option.some.inj hi).symm)
    · rw [hself]
      rfl
    · intro _ _
      right
      right
      rw [hself]
      exact decide_eq_true rfl
  | some copy =>
    have hevaluated := hmatch copy rfl
    rw [← matched_evaluate] at hevaluated
    obtain ⟨hanswers, htakes⟩ := afterLost_straight hself hsame hevaluated
    exact .of_row hpc rfl (fun i hi => (Option.some.inj hi).symm) hanswers fun _ _ => htakes

theorem load_straight {won : Bool} (hpc : s.requests q = .loading d won)
    (hrow : s.rows d = some row) (hcur : won = false → s.status d ≠ some .pending)
    (hself : t.requests q = (afterClaim cfg q .ops d row won).pc)
    (hsame : t.status d = s.status d) :
    s.Straight t (fun d => t.status d = some .approved) q act := by
  cases won with
  | true =>
    apply State.Straight.of_silent hpc rfl (fun i hi => by cases hi)
    · rw [hself]
      exact afterClaimed_outcome _ _ _ _
    · intro hseeks
      cases hseeks
  | false =>
    have hst : row.status ≠ .pending := by simpa [status_of_row hrow] using hcur rfl
    have hmatch : s.matched d row = true := by
      unfold State.matched
      rw [status_of_row hrow]
      cases hrst : row.status <;> simp [hrst] at hst ⊢
    obtain ⟨hanswers, htakes⟩ := afterLost_straight hself hsame hmatch
    exact .of_row hpc rfl (fun i hi => (Option.some.inj hi).symm) hanswers fun _ _ => htakes

theorem missing_straight (hpc : s.requests q = pc) (hsubject : pc.subject = some d)
    (hseeks : ∀ i, pc.seeks = some i → i = d) (hrow : s.rows d = none)
    (hself : t.requests q = .answered .notFound) :
    s.Straight t (fun d => t.status d = some .approved) q act := by
  apply State.Straight.of_row hpc hsubject hseeks
  · intro outcome ho
    rw [hself] at ho
    cases ho
    trivial
  · intro _ _ hfailed
    simp [State.status, hrow] at hfailed

theorem retryWon_straight (hpc : s.requests q = .retrying channel d copy)
    (happroved : t.status d = some .approved)
    (hself : t.requests q = afterClaimed cfg channel d (copy.evaluate .failed .approved)) :
    s.Straight t (fun d => t.status d = some .approved) q act := by
  apply State.Straight.of_silent hpc rfl (fun i hi => (Option.some.inj hi).symm)
  · rw [hself]
    exact afterClaimed_outcome _ _ _ _
  · exact fun _ _ => .inl happroved

theorem retryLost_straight (hpc : s.requests q = .retrying channel d copy)
    (happroved : s.status d = some .approved)
    (hself : t.requests q = channel.finish d .approve .inProgress)
    (hsame : t.status d = s.status d) :
    s.Straight t (fun d => t.status d = some .approved) q act := by
  have hfailed : s.status d ≠ some .failed := by simp [happroved]
  obtain ⟨hanswers, htakes⟩ := finish_straight channel .approve hself (hsame.trans happroved) hfailed
  exact .of_row hpc rfl (fun i hi => (Option.some.inj hi).symm) hanswers fun _ _ => htakes

theorem rejectWon_straight {held : Option ReviewDecision}
    (hpc : s.requests q = .rejecting channel d held) (hpending : s.status d = some .pending)
    (hrejected : t.status d = some .rejected)
    (hself : t.requests q = rejectNext channel d held true) :
    s.Straight t (fun d => t.status d = some .approved) q act := by
  apply State.Straight.of_row hpc rfl (fun i hi => (Option.some.inj hi).symm)
  · intro outcome ho
    rw [hself] at ho
    cases held with
    | none => cases ho
    | some copy =>
      simp only [rejectNext, afterReject, if_true, finish_outcome, Option.some.injEq] at ho
      subst ho
      exact hrejected
  · intro _ _ hfailed
    cases hpending.symm.trans hfailed

theorem rejectLost_straight {held : Option ReviewDecision}
    (hpc : s.requests q = .rejecting channel d held)
    (hopen : held = none → s.status d ≠ some .failed)
    (hmatch : ∀ copy, held = some copy → if copy.status = .executed
      then s.status d = some .executed else s.status d = some .approved)
    (hself : t.requests q = rejectNext channel d held false) (hsame : t.status d = s.status d) :
    s.Straight t (fun d => t.status d = some .approved) q act := by
  cases held with
  | none =>
    apply State.Straight.of_silent hpc rfl (fun i hi => (Option.some.inj hi).symm)
    · rw [hself]
      rfl
    · exact fun _ hfailed => absurd hfailed (hopen rfl)
  | some copy =>
    have hstatus := hmatch copy rfl
    simp only [← evaluate_executed copy] at hstatus
    obtain ⟨hanswers, htakes⟩ := lost_rejection channel hself hsame hstatus
    exact .of_row hpc rfl (fun i hi => (Option.some.inj hi).symm) hanswers fun _ _ => htakes

theorem loadRejected_straight {won : Bool} (hpc : s.requests q = .loadingRejected d won)
    (hrejected : won = true → s.status d = some .rejected)
    (hmatch : won = false → if row.status = .executed
      then s.status d = some .executed else s.status d = some .approved)
    (hself : t.requests q = afterReject .ops d row won) (hsame : t.status d = s.status d) :
    s.Straight t (fun d => t.status d = some .approved) q act := by
  cases won with
  | true =>
    apply State.Straight.of_row hpc rfl (fun i hi => by cases hi)
    · intro outcome ho
      rw [hself] at ho
      cases ho
      exact hsame.trans (hrejected rfl)
    · intro hseeks
      cases hseeks
  | false =>
    obtain ⟨hanswers, htakes⟩ := lost_rejection .ops hself hsame (hmatch rfl)
    exact .of_row hpc rfl (fun i hi => (Option.some.inj hi).symm) hanswers fun _ _ => htakes

end

theorem RequestMove.straight (h : RequestMove cfg s.rows s.nextId q (s.requests q) act eff)
    (hcur : s.current (.request q act) = true) :
    s.Straight (s.applyRequest q eff)
      (fun d => (s.applyRequest q eff).status d = some .approved) q act := by
  have hself : (s.applyRequest q eff).requests q = eff.pc := applyRequest_self s q eff
  have hwritten : ∀ d new, eff.write d = some new →
      (s.applyRequest q eff).status d = some new.status := fun _ _ => applyRequest_status_written
  generalize hpc : s.requests q = pc at h
  cases h with
  | claimWon channel d held row new hrow hnew =>
    have hst := (ReviewDecision.transition_eq_some.mp hnew).1
    exact claimWon_straight hpc ((status_of_row hrow).trans (congrArg some hst)) hself
  | claimLost channel d held hlost =>
    have hst : s.status d ≠ some .pending := lost_iff.mp hlost
    refine claimLost_straight hpc ?_ hself (applyRequest_status ?_)
    · rintro copy rfl
      simpa [State.current, hpc, hst] using hcur
    · cases held <;> rfl
  | load d won row hrow =>
    refine load_straight hpc hrow ?_ hself (applyRequest_status ?_)
    · rintro rfl
      simpa [State.current, hpc] using hcur
    · cases won <;> rfl
  | loadNone d won hrow | loadRejectedNone d won hrow =>
    refine missing_straight hpc rfl (fun i hi => ?_) hrow hself
    cases won <;> cases hi
    rfl
  | retryWon channel d copy row new hrow hnew =>
    obtain ⟨-, rfl⟩ := ReviewDecision.transition_eq_some.mp hnew
    exact retryWon_straight hpc (hwritten d _ (only_self d _)) hself
  | retryLost channel d copy hlost =>
    have hfailed : s.status d ≠ some .failed := lost_iff.mp hlost
    have happroved : s.status d = some .approved := by
      simpa [State.current, hpc, hfailed] using hcur
    exact retryLost_straight hpc happroved hself (applyRequest_status rfl)
  | rejectWon channel d held row new hrow hnew =>
    obtain ⟨hst, rfl⟩ := ReviewDecision.transition_eq_some.mp hnew
    exact rejectWon_straight hpc ((status_of_row hrow).trans (congrArg some hst))
      (hwritten d _ (only_self d _)) hself
  | rejectLost channel d held hlost =>
    have hst : s.status d ≠ some .pending := lost_iff.mp hlost
    refine rejectLost_straight hpc ?_ ?_ hself (applyRequest_status rfl)
    · rintro rfl
      simpa [State.current, hpc] using hcur
    · rintro copy rfl
      simpa [State.current, hpc, hst] using hcur
  | loadRejected d won row hrow =>
    refine loadRejected_straight hpc ?_ ?_ hself (applyRequest_status rfl)
    · rintro rfl
      simpa [State.current, hpc, status_of_row hrow] using hcur
    · rintro rfl
      rw [status_of_row hrow]
      cases hrst : row.status <;> simp [State.current, hpc, status_of_row hrow, hrst] at hcur ⊢
  | dbError pc | crash pc =>
    constructor
    · intro d outcome _ ho
      rw [hself] at ho
      cases ho
    · intro d _ hcompletes
      cases hcompletes
  | _ => exact State.Straight.of_subject hpc rfl rfl

theorem State.Candid.bears (h : s.Candid cfg (.request q act)) {verb : Verb} {outcome : Outcome}
    (hstep : requestStep cfg s.rows s.nextId q (s.requests q) act =
      some { pc := channel.finish d verb outcome })
    (hsubject : (s.requests q).subject = some d) :
    s.Bears d (s.status d = some .approved) outcome := by
  have htaken : step cfg s (.request q act) =
      some (s.applyRequest q { pc := channel.finish d verb outcome }) := by
    simp only [step, hstep, Option.map_some]
  have hbears := (h _ htaken).answers d outcome hsubject (by simp)
  have hsame : (s.applyRequest q { pc := channel.finish d verb outcome }).status d = s.status d :=
    applyRequest_status rfl
  unfold State.Bears at hbears ⊢
  rw [hsame] at hbears
  exact hbears

theorem State.Candid.taken (h : s.Candid cfg (.request q act))
    (hstep : requestStep cfg s.rows s.nextId q (s.requests q) act = some eff)
    (hseeks : (s.requests q).seeks = some d) (hcompletes : act.completes = true)
    (hwrite : eff.write d = none) (hlater : eff.pc.approving d = false) :
    s.status d ≠ some .failed := by
  have htaken : step cfg s (.request q act) = some (s.applyRequest q eff) := by
    simp only [step, hstep, Option.map_some]
  have hsame : (s.applyRequest q eff).status d = s.status d := applyRequest_status hwrite
  intro hfailed
  have hrow := (h _ htaken).takes d hseeks hcompletes hfailed
  unfold State.Taken at hrow
  rw [hsame, hfailed, applyRequest_self, hlater] at hrow
  simp at hrow

theorem State.Candid.claim (h : s.Candid cfg (.request q .claim)) :
    s.current (.request q .claim) = true := by
  unfold State.current
  dsimp only
  cases hpc : s.requests q with
  | claiming channel d held =>
    cases held with
    | none => rfl
    | some copy =>
      by_cases hpending : s.status d = some .pending
      · simp [hpending]
      have hstep : requestStep cfg s.rows s.nextId q (s.requests q) .claim =
          some { pc := afterLost channel d (copy.evaluate .pending .approved) } := by
        have hlost : (s.rows d).bind (·.claim) = none := lost_iff.mpr hpending
        rw [hpc]
        unfold requestStep
        simp [hlost, claimNext, afterClaim]
      have hsubject : (s.requests q).subject = some d := by rw [hpc]; rfl
      dsimp only
      rw [← matched_evaluate]
      unfold State.matched
      unfold afterLost at hstep
      cases hst : (copy.evaluate .pending .approved).status with
      | failed => simp
      | executed | rejected | pending | approved =>
        rw [hst] at hstep
        have hbears := h.bears hstep hsubject
        simpa [hpending, State.Bears] using hbears
  | _ => rfl

theorem State.Candid.load (h : s.Candid cfg (.request q .load)) :
    s.current (.request q .load) = true := by
  unfold State.current
  dsimp only
  cases hpc : s.requests q with
  | loading d won =>
    cases won with
    | true => rfl
    | false =>
      apply decide_eq_true
      intro hpending
      obtain ⟨row, hrow, hst⟩ := Option.map_eq_some_iff.mp hpending
      have hstep : requestStep cfg s.rows s.nextId q (s.requests q) .load =
          some { pc := afterLost .ops d row } := by
        rw [hpc]
        unfold requestStep
        simp [hrow, afterClaim]
      have hsubject : (s.requests q).subject = some d := by rw [hpc]; rfl
      unfold afterLost at hstep
      rw [hst] at hstep
      have happroved : s.status d = some .approved := h.bears hstep hsubject
      cases hpending.symm.trans happroved
  | loadingRejected d won =>
    have hsubject : (s.requests q).subject = some d := by rw [hpc]; rfl
    cases hrow : s.rows d with
    | none => cases won <;> simp [State.status, hrow]
    | some row =>
      have hstep : requestStep cfg s.rows s.nextId q (s.requests q) .load =
          some { pc := afterReject .ops d row won } := by
        rw [hpc]
        unfold requestStep
        simp [hrow]
      have hbears := h.bears hstep hsubject
      cases won with
      | true =>
        have hrejected : s.status d = some .rejected := hbears
        simp [hrejected]
      | false =>
        by_cases hexecuted : row.status = .executed
        · simp [status_of_row hrow, hexecuted]
        · have happroved : s.status d = some .approved := by
            simpa [hexecuted, State.Bears] using hbears
          simp [happroved]
  | _ => rfl

theorem State.Candid.retry (h : s.Candid cfg (.request q .retry)) :
    s.current (.request q .retry) = true := by
  unfold State.current
  dsimp only
  cases hpc : s.requests q with
  | retrying channel d copy =>
    by_cases hfailed : s.status d = some .failed
    · simp [hfailed]
    have hstep : requestStep cfg s.rows s.nextId q (s.requests q) .retry =
        some { pc := channel.finish d .approve .inProgress } := by
      have hlost : (s.rows d).bind (·.retry) = none := lost_iff.mpr hfailed
      rw [hpc]
      unfold requestStep
      simp [hlost]
    have hsubject : (s.requests q).subject = some d := by rw [hpc]; rfl
    have happroved : s.status d = some .approved := h.bears hstep hsubject
    simp [happroved]
  | _ => rfl

theorem State.Candid.reject (h : s.Candid cfg (.request q .reject)) :
    s.current (.request q .reject) = true := by
  unfold State.current
  dsimp only
  cases hpc : s.requests q with
  | rejecting channel d held =>
    by_cases hpending : s.status d = some .pending
    · cases held <;> simp [hpending]
    have hstep : requestStep cfg s.rows s.nextId q (s.requests q) .reject =
        some { pc := rejectNext channel d held false } := by
      have hlost : (s.rows d).bind (·.reject) = none := lost_iff.mpr hpending
      rw [hpc]
      unfold requestStep
      simp [hlost]
    cases held with
    | none =>
      have hopen := h.taken (d := d) hstep (by rw [hpc]; rfl) rfl rfl rfl
      simpa using hopen
    | some copy =>
      have hsubject : (s.requests q).subject = some d := by rw [hpc]; rfl
      have hbears := h.bears hstep hsubject
      dsimp only
      simp only [← evaluate_executed copy]
      by_cases hexecuted : (copy.evaluate .pending .rejected).status = .executed
      · have hst : s.status d = some .executed := by
          simpa [hexecuted, State.Bears] using hbears
        simp [hexecuted, hst]
      · have hst : s.status d = some .approved := by
          simpa [hexecuted, State.Bears] using hbears
        simp [hexecuted, hst]
  | _ => rfl

theorem candid_iff {a : Step} : s.Candid cfg a ↔ s.current a = true := by
  constructor
  · intro h
    cases a with
    | router r act => rfl
    | request q act =>
      cases act with
      | claim => exact h.claim
      | load => exact h.load
      | retry => exact h.retry
      | reject => exact h.reject
      | _ => rfl
  · intro hcur
    cases a with
    | router r act => trivial
    | request q act =>
      intro t hstep
      obtain ⟨eff, hmove, rfl⟩ := step_request hstep
      exact hmove.straight hcur

end

namespace Life

/-- An approved row was last assigned by the request that has approved it. -/
def Claimed (l : Life) : Prop :=
  l.status = some .approved → ∃ q, l.history.head? = some (.approved, .human q)

theorem Claimed.assign {l : Life} {status : DecisionStatus} {setter : Setter}
    (h : status = .approved → ∃ q, setter = .human q) : (l.assign status setter).Claimed := by
  intro hst
  obtain rfl := Option.some.inj hst
  obtain ⟨q, rfl⟩ := h rfl
  exact ⟨q, rfl⟩

theorem Claimed.step {l l' : Life} {a : Act} (h : l.Claimed) (hstep : l.step a = some l') :
    l'.Claimed := by
  cases a with
  | create r auto | reject q | requeue setter =>
    simp only [Life.step, Option.ite_none_right_eq_some, Option.some.injEq] at hstep
    obtain ⟨-, rfl⟩ := hstep
    exact Claimed.assign (fun heq => by cases heq)
  | take q =>
    simp only [Life.step, Option.ite_none_right_eq_some, Option.some.injEq] at hstep
    obtain ⟨-, rfl⟩ := hstep
    exact Claimed.assign (fun _ => ⟨q, rfl⟩)
  | pickUp r | post o ok =>
    simp only [Life.step, Option.ite_none_right_eq_some, Option.some.injEq] at hstep
    obtain ⟨-, rfl⟩ := hstep
    exact h
  | mark o =>
    simp only [Life.step, Option.map_eq_some_iff] at hstep
    obtain ⟨hold, -, rfl⟩ := hstep
    apply Claimed.assign
    intro heq
    cases hold <;> cases heq
  | letGo o =>
    simp only [Life.step, Option.ite_none_left_eq_some, Option.some.injEq] at hstep
    obtain ⟨-, rfl⟩ := hstep
    exact h
  | sweep q =>
    simp only [Life.step, Option.ite_none_left_eq_some, Option.some.injEq] at hstep
    obtain ⟨-, rfl⟩ := hstep
    exact Claimed.assign (fun heq => by cases heq)

theorem Reachable.claimed {kept : Life → Act → Prop} {l : Life} (h : lives.Reachable kept l) :
    l.Claimed :=
  Reachable.invariant (J := fun _ => True) (fun _ _ => trivial) (fun hst => by cases hst)
    (fun _ _ _ _ _ hstep hs => hs.step hstep) h

end Life

theorem approved_underway {cfg : Settings} {ok : State → Step → Prop} {s : State} {d : DecisionId}
    (h : (reviews cfg .empty).Reachable ok s) (hst : s.status d = some .approved) :
    s.Underway d := by
  have hlife : lives.Reachable (fun _ _ => True) (s.life d) :=
    Reachable.life (Nat.zero_le d) (fun _ _ _ _ _ _ => trivial) h
  obtain ⟨q, hhead⟩ := Life.Reachable.claimed hlife hst
  obtain ⟨earlier, hhistory⟩ := List.head?_eq_some_iff.mp hhead
  refine ⟨q, [], earlier, hhistory, ?_, ?_⟩
  · exact List.not_mem_nil
  · exact List.not_mem_nil

theorem State.Candid.honest {cfg : Settings} {ok : State → Step → Prop} {s : State} {a : Step}
    (hs : (reviews cfg .empty).Reachable ok s) (h : s.Candid cfg a) : s.Honest cfg a := by
  cases a with
  | router r act => trivial
  | request q act =>
    intro t hstep
    have hafter : (reviews cfg .empty).step s (.request q act) = some t := hstep
    have ht : (reviews cfg .empty).Reachable anyStep t :=
      Reachable.step (Run.mono hs fun _ _ _ => trivial) trivial hafter
    obtain ⟨hanswers, htakes⟩ := h t hstep
    refine ⟨?_, htakes⟩
    intro d outcome hsubject ho
    have hbears := hanswers d outcome hsubject ho
    cases outcome with
    | inProgress => exact approved_underway ht hbears
    | _ => exact hbears

/-- In every run all of whose steps are current, every answer of `claim_approval` and of
`reject_pending` is true of the row, and a failed row is taken by the approval or the
rejection that meets it. The runs whose steps are all current are those in which, besides,
"in_progress" is answered for an approved row only. -/
theorem decisions_honest (cfg : Settings) (acts : List Step) :
    ((reviews cfg .empty).Admits (fun s a => s.current a = true) acts (State.initial .empty) →
      (reviews cfg .empty).Admits (State.Honest cfg) acts (State.initial .empty)) ∧
    ((reviews cfg .empty).Admits (fun s a => s.current a = true) acts (State.initial .empty) ↔
      (reviews cfg .empty).Admits (State.Candid cfg) acts (State.initial .empty)) := by
  have hstart : ∀ ok, (reviews cfg .empty).Reachable ok (State.initial .empty) :=
    fun ok => Relation.ReflTransGen.refl
  refine ⟨fun h => ?_, fun h => ?_, fun h => ?_⟩
  · apply h.imp (hstart _)
    intro u a hu hcur
    exact State.Candid.honest hu (candid_iff.mpr hcur)
  · exact h.imp (hstart _) fun _ _ _ => candid_iff.mpr
  · exact h.imp (hstart _) fun _ _ _ => candid_iff.mp

/-- A queued review is rejected. -/
theorem decisions_honest_rejected :
    (reviews .small .empty).Admits (State.Honest .small)
      (queueRun ++ requestRun 0 [.begin .reject .ops 0, .reject, .load]) (State.initial .empty) :=
  (decisions_honest .small _).1 (by decide)

def closingRun : List Step :=
  routerRun 0 [.start (.sample "low") true, .select, .insert, .post (.answered refused), .mark] ++
    requestRun 0 [.begin .reject .ops 0, .reject]

def closingState : State := (reviews .small .empty).after closingRun (by decide)

def closedState : State := (step .small closingState (.request 0 .load)).get (by decide)

/-- The rejection is told to wait for an approval that nobody has made, and the row stays
failed. -/
theorem failed_row_not_rejected :
    (reviews .small .empty).Reachable anyStep closingState ∧
      closingState.status 0 = some .failed ∧
      step .small closingState (.request 0 .load) = some closedState ∧
      (closedState.requests 0).outcome = some .inProgress ∧
      closedState.status 0 = some .failed ∧
      ¬ closedState.Underway 0 ∧ ¬ closingState.Honest .small (.request 0 .load) := by
  have hstep : step .small closingState (.request 0 .load) = some closedState :=
    (Option.some_get _).symm
  have hidle : ¬ closedState.Underway 0 := by
    rintro ⟨q, later, earlier, hhistory, -⟩
    have hmem : (DecisionStatus.approved, Setter.human q) ∈ closedState.history 0 := by
      rw [hhistory]
      exact List.mem_append_right later List.mem_cons_self
    have hnone : ∀ entry ∈ closedState.history 0, entry.1 ≠ .approved := by decide
    exact hnone _ hmem rfl
  refine ⟨Reachable.after _ (System.Admits.any _ _), by decide, hstep, rfl, by decide, hidle, ?_⟩
  intro h
  exact hidle ((h closedState hstep).answers 0 .inProgress rfl rfl)

end AutoPR.Routing
