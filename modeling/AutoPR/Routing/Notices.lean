import AutoPR.Routing.Creation
import AutoPR.Routing.Stored

/-! Which pending decisions their tenant has been told of. The notice goes with the
creation by a gated run; a row that comes to the queue in another way has none. -/
namespace AutoPR.Routing
open Python UnitOfWork Transition

/-- The notice of the row, on its pull request. -/
def ReviewDecision.notice (u : Unicode) (d : DecisionId) (row : ReviewDecision) : Comment :=
  ⟨.str row.repo, row.prNumber, queuedNotice u d row.action row.risk⟩

def Event.told (d : DecisionId) : Event → Bool
  | .notified _ i _ ok => i = d && ok
  | _ => false

def RouterPc.fresh (d : DecisionId) : RouterPc → Bool
  | .posting _ (some (i, copy)) | .marking _ i copy _ => i = d && copy.status = .pending
  | _ => false

def RouterPc.atRest : RouterPc → Bool
  | .idle | .returned _ | .raised => true
  | _ => false

/-- The post is answered, whatever it was. -/
def RouterRun.answers (u : Unicode) (run : RouterRun) (outcome : PostOutcome) : Bool :=
  match run.comment u, outcome with
  | .error _, _ => false
  | .ok none, _ => true
  | .ok (some _), .answered _ => true
  | .ok (some _), .raised => false

namespace State

/-- A notice of the decision has been posted. -/
def told (s : State) (d : DecisionId) : Bool := s.events.any (Event.told d)

def untold (s : State) (d : DecisionId) : Bool :=
  !s.told d && (s.rows d).any fun row => row.installationId.isSome

def waits (s : State) (d : DecisionId) : Bool :=
  s.untold d && (s.rows d).any fun row => row.status = .pending

/-- A gated run creates a tenant's row only when it can address a notice; an auto run
that has created one sees its post answered and its mark committed; and only a row with
a notice is put back into the queue. -/
def announceKept (cfg : Settings) (s : State) (d : DecisionId) : Step → Bool
  | .router r act =>
      match s.routers r, act with
      | .inserting run key row, .insert =>
          s.nextId ≠ d || (findDecision s.rows s.nextId key).isSome ||
            !run.decision.requiresApproval || row.installationId.isNone ||
            (noticeComment cfg.unicode run.state d row).isSome
      | .posting run (some (i, _)), .post outcome =>
          i ≠ d || !s.waits d || run.answers cfg.unicode outcome
      | .marking _ i _ _, .dbError => i ≠ d || !s.waits d
      | .requeueing _ i, .requeue => i ≠ d || !s.untold d
      | _, _ => true
  | .request q act =>
      match s.requests q, act with
      | .requeueing i, .requeue => i ≠ d || !s.untold d
      | _, _ => true

end State

/-- No run crashes, and every notice is posted. -/
def Step.noticesArrive : Step → Bool
  | .router _ .crash | .request _ .crash => false
  | .router _ (.notify outcome) => outcome.ok
  | _ => true

theorem notice_of_content {u : Unicode} {d : DecisionId} {row new : ReviewDecision}
    (h : new.content = row.content) : new.notice u d = row.notice u d := by
  have hrepo : new.repo = row.repo := congrArg (·.repo) h
  have hpr : new.prNumber = row.prNumber := congrArg (·.prNumber) h
  have haction : new.action = row.action := congrArg (·.action) h
  have hrisk : new.risk = row.risk := congrArg (·.risk) h
  simp only [ReviewDecision.notice, hrepo, hpr, haction, hrisk]

theorem noticeComment_notice {u : Unicode} {state : PRState} {decision : RoutingDecision}
    {key : String} {d : DecisionId} {row : ReviewDecision} {comment : Comment}
    (hnew : newDecision u state decision key = .ok row)
    (h : noticeComment u state d row = some comment) : comment = row.notice u d := by
  obtain ⟨hrepo, hpr, -⟩ := newDecision_address hnew
  unfold noticeComment at h
  simp only at h
  split at h
  · cases h
  · rename_i hguard
    simp only [Bool.or_eq_true, decide_eq_true_eq, not_or, Bool.not_eq_true] at hguard
    obtain ⟨⟨-, hnamed⟩, hnumbered⟩ := hguard
    have hsame : ((state.repo.getD .none).or (.str "")).toStr u = row.repo := by
      cases hstate : state.repo with
      | none => simp [hstate, PyVal.or, PyVal.truthy, PyVal.toStr] at hnamed
      | some v =>
        rw [hstate] at hrepo
        cases hrepo
        by_cases hempty : row.repo = "" <;> simp [PyVal.or, PyVal.truthy, PyVal.toStr, hempty]
    have hnumber : (state.prNumber.getD .none).toInt u = .ok row.prNumber := by
      cases hstate : state.prNumber with
      | none => simp [hstate, PyVal.isNone] at hnumbered
      | some v =>
        rw [hstate] at hpr
        exact hpr
    rw [hnumber, hsame] at h
    cases h
    rfl

section
variable {cfg : Settings} {rows : DecisionTable} {nextId d : DecisionId} {new : ReviewDecision}

theorem mark_not_pending {row copy : ReviewDecision} {result : ActionResult}
    (h : row.status ≠ .pending) : (row.mark copy result).status ≠ .pending := by
  by_cases heq : result.status = copy.status
  · rw [ReviewDecision.mark_clean heq]
    exact h
  · rw [ReviewDecision.mark_dirty heq]
    unfold ActionResult.status
    split <;> decide

theorem RouterMove.pends {r : RouterId} {pc : RouterPc} {act : RouterAct} {eff : Effect RouterPc}
    (h : RouterMove cfg rows nextId r pc act eff) (hw : eff.write d = some new)
    (hst : new.status = .pending) (hnot : ∀ row, rows d = some row → row.status ≠ .pending) :
    (∃ run key, pc = .inserting run key new ∧ act = .insert ∧ d = nextId ∧
      findDecision rows nextId key = none ∧ eff.pc = afterEnqueue cfg.unicode run d new true) ∨
    ∃ run row, pc = .requeueing run d ∧ act = .requeue ∧ rows d = some row := by
  cases h with
  | insert run key row hfind =>
    obtain ⟨rfl, rfl⟩ := only_eq_some.mp hw
    exact .inl ⟨run, key, rfl, rfl, rfl, hfind, rfl⟩
  | requeueWon run i row updated hrow hnew =>
    obtain ⟨rfl, rfl⟩ := only_eq_some.mp hw
    exact .inr ⟨run, row, rfl, rfl, hrow⟩
  | mark run i copy result row hrow =>
    obtain ⟨rfl, rfl⟩ := only_eq_some.mp hw
    exact absurd hst (mark_not_pending (hnot row hrow))
  | _ => cases hw

theorem RequestMove.pends {q : RequestId} {pc : RequestPc} {act : RequestAct}
    {eff : Effect RequestPc} (h : RequestMove cfg rows nextId q pc act eff)
    (hw : eff.write d = some new) (hst : new.status = .pending)
    (hnot : ∀ row, rows d = some row → row.status ≠ .pending) :
    pc = .requeueing d ∧ act = .requeue ∧ ∃ row, rows d = some row := by
  cases h with
  | claimWon channel i held row updated hrow hnew | retryWon channel i copy row updated hrow hnew
  | rejectWon channel i held row updated hrow hnew =>
    obtain ⟨rfl, rfl⟩ := only_eq_some.mp hw
    rw [(ReviewDecision.transition_eq_some.mp hnew).2] at hst
    cases hst
  | requeueWon i row updated hrow hnew =>
    obtain ⟨rfl, rfl⟩ := only_eq_some.mp hw
    exact ⟨rfl, rfl, row, hrow⟩
  | hand i copy row hrow =>
    obtain ⟨rfl, rfl⟩ := only_eq_some.mp hw
    obtain heq | heq := column_eq_or copy.status .executed row.status
    · exact absurd (heq.symm.trans hst) (hnot row hrow)
    · cases heq.symm.trans hst
  | mark channel i copy result row hrow =>
    obtain ⟨rfl, rfl⟩ := only_eq_some.mp hw
    exact absurd hst (mark_not_pending (hnot row hrow))
  | commit copies =>
    obtain ⟨copy, -, hnew⟩ := Option.bind_eq_some_iff.mp hw
    obtain ⟨row, hrow, rfl⟩ := Option.map_eq_some_iff.mp hnew
    obtain heq | heq := column_eq_or copy.status .failed row.status
    · exact absurd (heq.symm.trans hst) (hnot row hrow)
    · cases heq.symm.trans hst
  | claimLost channel i held => cases held <;> simp [claimNext, afterClaim] at hw
  | load i won row => cases won <;> cases hw
  | _ => cases hw

theorem afterEnqueue_created {u : Unicode} {run : RouterRun} (hst : new.status = .pending)
    (hnotice : run.decision.requiresApproval = true → (noticeComment u run.state d new).isSome) :
    (afterEnqueue u run d new true).announcing d = true ∨
      (afterEnqueue u run d new true).fresh d = true := by
  unfold afterEnqueue
  rw [if_neg (by rw [hst]; decide)]
  cases happroval : run.decision.requiresApproval with
  | true =>
    obtain ⟨comment, hcomment⟩ := Option.isSome_iff_exists.mp (hnotice happroval)
    simp [hcomment, RouterPc.announcing]
  | false => simp [RouterPc.fresh, hst]

end

/-- Each notice is its row's, and a tenant's pending row has had one or belongs to the run
that has created it. -/
structure Heard (cfg : Settings) (s : State) (d : DecisionId) : Prop where
  notified : ∀ r comment ok, .notified r d comment ok ∈ s.events →
    ∃ row, s.rows d = some row ∧ comment = row.notice cfg.unicode d
  notifying : ∀ r run copy comment, s.routers r = .notifying run d copy comment →
    ∃ row, s.rows d = some row ∧ comment = row.notice cfg.unicode d
  pending : s.waits d = true → ∃ r, (s.routers r).announcing d = true ∨ (s.routers r).fresh d = true

section
variable {cfg : Settings} {s t : State} {a : Step} {d : DecisionId} {row : ReviewDecision}

theorem waits_iff : s.waits d = true ↔ s.told d = false ∧
    ∃ row, s.rows d = some row ∧ row.installationId.isSome ∧ row.status = .pending := by
  unfold State.waits State.untold
  cases s.rows d <;> simp [and_assoc]

theorem told_mono (h : step cfg s a = some t) (hs : s.told d = true) : t.told d = true := by
  obtain ⟨e, he, htold⟩ := List.any_eq_true.mp hs
  exact List.any_eq_true.mpr ⟨e, step_events_mono h he, htold⟩

theorem notice_persist (hwf : WellFormed cfg s) (h : step cfg s a = some t) {comment : Comment}
    (hrow : ∃ row, s.rows d = some row ∧ comment = row.notice cfg.unicode d) :
    ∃ row, t.rows d = some row ∧ comment = row.notice cfg.unicode d := by
  obtain ⟨row, hrow, rfl⟩ := hrow
  obtain ⟨new, hnew, hcontent⟩ := hwf.rows_persist h hrow
  exact ⟨new, hnew, (notice_of_content hcontent).symm⟩

theorem Heard.step_notified (hs : Heard cfg s d) (hwf : WellFormed cfg s)
    (h : step cfg s a = some t) (r : RouterId) (comment : Comment) (ok : Bool)
    (he : .notified r d comment ok ∈ t.events) :
    ∃ row, t.rows d = some row ∧ comment = row.notice cfg.unicode d := by
  apply notice_persist hwf h
  obtain hold | ⟨i, act, eff, rfl, hmove, hnew, rfl⟩ | hnone := step_event h he
  · exact hs.notified r comment ok hold
  · obtain ⟨_, _, -, heq, -⟩ | ⟨_, _, _, heq⟩ | ⟨run, j, copy, made, _, hpc, heq⟩ |
      ⟨_, _, _, _, -, -, heq⟩ := hmove.event hnew
    · cases heq
    · cases heq
    · cases heq
      exact hs.notifying r run copy comment hpc
    · cases heq
  · cases hnone

theorem RouterMove.notifying {r : RouterId} {pc : RouterPc} {act : RouterAct}
    {eff : Effect RouterPc} {run : RouterRun} {copy : ReviewDecision} {comment : Comment}
    (h : RouterMove cfg s.rows s.nextId r pc act eff)
    (hpc : eff.pc = .notifying run d copy comment) :
    (∃ key, pc = .inserting run key copy) ∧ eff.write d = some copy ∧
      noticeComment cfg.unicode run.state d copy = some comment := by
  obtain ⟨hnext, hgrow⟩ := h.announcing (d := d) (by simp [hpc, RouterPc.announcing])
  cases h with
  | insert run' key row hfind =>
    subst hnext
    obtain ⟨result, heq⟩ | ⟨-, ⟨made, -, hmade, heq⟩ | ⟨-, heq⟩⟩ | ⟨-, -, heq⟩ :=
      afterEnqueue_cases cfg.unicode run' s.nextId row true <;> cases heq.symm.trans hpc
    exact ⟨⟨key, rfl⟩, only_self _ _, hmade⟩
  | _ => cases hgrow

theorem Heard.step_notifying (hs : Heard cfg s d) (hwf : WellFormed cfg s)
    (h : step cfg s a = some t) (r : RouterId) (run : RouterRun) (copy : ReviewDecision)
    (comment : Comment) (hpc : t.routers r = .notifying run d copy comment) :
    ∃ row, t.rows d = some row ∧ comment = row.notice cfg.unicode d := by
  obtain hsame | ⟨act, eff, rfl, hmove, rfl⟩ := step_routers h r
  · exact notice_persist hwf h (hs.notifying r run copy comment (hsame ▸ hpc))
  · rw [applyRouter_self] at hpc
    obtain ⟨⟨key, hold⟩, hw, hmade⟩ := hmove.notifying hpc
    exact ⟨copy, by simp [hw], noticeComment_notice (hwf.inserting r run key copy hold) hmade⟩

theorem routerStep_notifying {rows : DecisionTable} {nextId : DecisionId} {r : RouterId}
    {run : RouterRun} {copy : ReviewDecision} {comment : Comment} {act : RouterAct}
    {eff : Effect RouterPc}
    (h : routerStep cfg rows nextId r (.notifying run d copy comment) act = some eff) :
    act = .crash ∨ ∃ outcome, act = .notify outcome ∧
      .notified r d comment outcome.ok ∈ eff.events := by
  cases act with
  | crash => exact .inl rfl
  | notify outcome =>
    cases h
    exact .inr ⟨outcome, rfl, List.mem_singleton_self _⟩
  | _ => cases h

theorem routerStep_posting {rows : DecisionTable} {nextId : DecisionId} {r : RouterId}
    {run : RouterRun} {copy : ReviewDecision} {act : RouterAct} {eff : Effect RouterPc}
    (h : routerStep cfg rows nextId r (.posting run (some (d, copy))) act = some eff) :
    act = .crash ∨ ∃ outcome, act = .post outcome ∧
      (run.answers cfg.unicode outcome = true → ∃ result, eff.pc = .marking run d copy result) := by
  cases act with
  | crash => exact .inl rfl
  | post outcome =>
    refine .inr ⟨outcome, rfl, fun hanswers => ?_⟩
    unfold RouterRun.answers at hanswers
    simp only [routerStep] at h
    split at hanswers
    · cases hanswers
    · rename_i hcomment
      rw [hcomment] at h
      cases h
      exact ⟨_, rfl⟩
    · rename_i comment result hcomment
      rw [hcomment] at h
      cases h
      exact ⟨result, rfl⟩
    · cases hanswers
  | _ => cases h

theorem routerStep_marking {rows : DecisionTable} {nextId : DecisionId} {r : RouterId}
    {run : RouterRun} {copy : ReviewDecision} {result : ActionResult} {act : RouterAct}
    {eff : Effect RouterPc} (hrow : rows d = some row)
    (h : routerStep cfg rows nextId r (.marking run d copy result) act = some eff) :
    act = .crash ∨ act = .dbError ∨ (act = .mark ∧ eff.write d = some (row.mark copy result)) := by
  cases act with
  | crash => exact .inl rfl
  | dbError => exact .inr (.inl rfl)
  | mark =>
    simp only [routerStep, hrow] at h
    cases h
    exact .inr (.inr ⟨rfl, only_self _ _⟩)
  | _ => cases h

theorem mark_leaves_queue {copy : ReviewDecision} {result : ActionResult}
    (h : copy.status = .pending) : (row.mark copy result).status ≠ .pending := by
  have hresult : result.status ≠ .pending := by
    unfold ActionResult.status
    split <;> decide
  rw [ReviewDecision.mark_dirty (h ▸ hresult)]
  exact hresult

theorem told_of_mem {r : RouterId} {comment : Comment} (h : .notified r d comment true ∈ s.events) :
    s.told d = true :=
  List.any_eq_true.mpr ⟨_, h, by simp [Event.told]⟩

theorem announcing_eq {pc : RouterPc} (h : pc.announcing d = true) :
    ∃ run copy comment, pc = .notifying run d copy comment := by
  cases pc with
  | notifying run i copy comment =>
    obtain rfl : i = d := of_decide_eq_true h
    exact ⟨run, copy, comment, rfl⟩
  | _ => cases h

theorem fresh_eq {pc : RouterPc} (h : pc.fresh d = true) : ∃ run copy, copy.status = .pending ∧
    (pc = .posting run (some (d, copy)) ∨ ∃ result, pc = .marking run d copy result) := by
  unfold RouterPc.fresh at h
  split at h
  · rename_i run i copy
    simp only [Bool.and_eq_true, decide_eq_true_eq] at h
    obtain ⟨rfl, hst⟩ := h
    exact ⟨run, copy, hst, .inl rfl⟩
  · rename_i run i copy result
    simp only [Bool.and_eq_true, decide_eq_true_eq] at h
    obtain ⟨rfl, hst⟩ := h
    exact ⟨run, copy, hst, .inr ⟨result, rfl⟩⟩
  · cases h

theorem step_announcer {r : RouterId} (h : step cfg s a = some t) (harrive : a.noticesArrive = true)
    (hkept : s.announceKept cfg d a = true) (hs : s.waits d = true) (ht : t.waits d = true)
    (hr : (s.routers r).announcing d = true ∨ (s.routers r).fresh d = true) :
    (t.routers r).announcing d = true ∨ (t.routers r).fresh d = true := by
  obtain ⟨htold, new, hnew, -, hpending⟩ := waits_iff.mp ht
  obtain ⟨-, row, hrow, -, -⟩ := waits_iff.mp hs
  cases a with
  | request q act =>
    obtain ⟨eff, -, rfl⟩ := step_request h
    exact hr
  | router i act =>
    obtain ⟨eff, hstep, rfl⟩ := Option.map_eq_some_iff.mp h
    by_cases hi : r = i
    swap
    · rwa [applyRouter_of_ne _ _ _ hi]
    subst hi
    have hcrash : act ≠ .crash := by
      rintro rfl
      cases harrive
    rw [applyRouter_self]
    obtain hr | hr := hr
    · obtain ⟨run, copy, comment, hpc⟩ := announcing_eq hr
      rw [hpc] at hstep
      obtain hact | ⟨outcome, rfl, he⟩ := routerStep_notifying hstep
      · exact absurd hact hcrash
      · have hok : outcome.ok = true := harrive
        rw [hok] at he
        have htold' : (s.applyRouter r eff).told d = true :=
          told_of_mem (List.mem_append_left s.events he)
        cases htold.symm.trans htold'
    · obtain ⟨run, copy, hst, hpc | ⟨result, hpc⟩⟩ := fresh_eq hr
      · rw [hpc] at hstep
        obtain hact | ⟨outcome, rfl, hnext⟩ := routerStep_posting hstep
        · exact absurd hact hcrash
        · obtain ⟨result, heq⟩ := hnext (by simpa [State.announceKept, hpc, hs] using hkept)
          simp [heq, RouterPc.fresh, hst]
      · rw [hpc] at hstep
        obtain hact | rfl | ⟨rfl, hw⟩ := routerStep_marking hrow hstep
        · exact absurd hact hcrash
        · simp [State.announceKept, hpc, hs] at hkept
        · rw [applyRouter_rows, hw] at hnew
          cases hnew
          exact absurd hpending (mark_leaves_queue hst)

theorem untold_iff : s.untold d = true ↔
    s.told d = false ∧ ∃ row, s.rows d = some row ∧ row.installationId.isSome := by
  unfold State.untold
  cases s.rows d <;> simp

theorem untold_back (hwf : WellFormed cfg s) (h : step cfg s a = some t) (ht : t.untold d = true)
    (hrow : s.rows d = some row) : s.untold d = true := by
  obtain ⟨htold, new, hnew, hinst⟩ := untold_iff.mp ht
  obtain ⟨new', hnew', hcontent⟩ := hwf.rows_persist h hrow
  cases hnew.symm.trans hnew'
  have hsame : new.installationId = row.installationId := congrArg (·.installationId) hcontent
  refine untold_iff.mpr ⟨?_, row, hrow, hsame ▸ hinst⟩
  cases hs : s.told d with
  | false => rfl
  | true => cases htold.symm.trans (told_mono h hs)

theorem waits_untold (h : s.waits d = true) : s.untold d = true := (Bool.and_eq_true_iff.mp h).1

theorem step_arrival (hwf : WellFormed cfg s) (h : step cfg s a = some t)
    (hkept : s.announceKept cfg d a = true) (hs : s.waits d = false) (ht : t.waits d = true) :
    ∃ r, (t.routers r).announcing d = true ∨ (t.routers r).fresh d = true := by
  obtain ⟨htold, new, hnew, hinst, hpending⟩ := waits_iff.mp ht
  have hnot : ∀ row, s.rows d = some row → row.status ≠ .pending := by
    intro row hrow hst
    obtain ⟨hquiet, row', hrow', hinst'⟩ := untold_iff.mp (untold_back hwf h (waits_untold ht) hrow)
    cases hrow.symm.trans hrow'
    cases hs.symm.trans (waits_iff.mpr ⟨hquiet, row, hrow, hinst', hst⟩)
  cases a with
  | router r act =>
    obtain ⟨eff, hmove, rfl⟩ := step_router h
    have hw : eff.write d = some new := by
      obtain hw | ⟨-, hold⟩ := Option.or_eq_some_iff.mp hnew
      · exact hw
      · exact absurd hpending (hnot new hold)
    obtain ⟨run, key, hpc, rfl, rfl, hfind, heq⟩ | ⟨run, row, hpc, rfl, hrow⟩ :=
      hmove.pends hw hpending hnot
    · refine ⟨r, ?_⟩
      rw [applyRouter_self, heq]
      refine afterEnqueue_created hpending fun happroval => ?_
      obtain ⟨i, hi⟩ := Option.isSome_iff_exists.mp hinst
      simpa [State.announceKept, hpc, hfind, happroval, hi] using hkept
    · have huntold := untold_back hwf h (waits_untold ht) hrow
      simp [State.announceKept, hpc, huntold] at hkept
  | request q act =>
    obtain ⟨eff, hmove, rfl⟩ := step_request h
    have hw : eff.write d = some new := by
      obtain hw | ⟨-, hold⟩ := Option.or_eq_some_iff.mp hnew
      · exact hw
      · exact absurd hpending (hnot new hold)
    obtain ⟨hpc, rfl, row, hrow⟩ := hmove.pends hw hpending hnot
    have huntold := untold_back hwf h (waits_untold ht) hrow
    simp [State.announceKept, hpc, huntold] at hkept

theorem Heard.step (hs : Heard cfg s d) (hwf : WellFormed cfg s) (h : step cfg s a = some t)
    (harrive : a.noticesArrive = true) (hkept : s.announceKept cfg d a = true) : Heard cfg t d where
  notified := hs.step_notified hwf h
  notifying := hs.step_notifying hwf h
  pending ht := by
    cases hwaits : s.waits d with
    | true =>
      obtain ⟨r, hr⟩ := hs.pending hwaits
      exact ⟨r, step_announcer h harrive hkept hwaits ht hr⟩
    | false => exact step_arrival hwf h hkept hwaits ht

end

theorem Heard.initial {cfg : Settings} {ledger : Ledger} {d : DecisionId} (hd : ledger.nextId ≤ d) :
    Heard cfg (State.initial ledger) d where
  notified _ _ _ he := by cases he
  notifying _ _ _ _ hpc := by cases hpc
  pending hwaits := by
    obtain ⟨-, row, hrow, -⟩ := waits_iff.mp hwaits
    exact absurd (ledger.rows_lt d row hrow) (Nat.not_lt.mpr hd)

theorem Reachable.heard {cfg : Settings} {ledger : Ledger} {s : State} {d : DecisionId}
    (hd : ledger.nextId ≤ d)
    (h : (reviews cfg ledger).Reachable
      (fun u a => a.noticesArrive = true ∧ u.announceKept cfg d a = true) s) : Heard cfg s d :=
  Reachable.invariant (I := fun u => Heard cfg u d) (J := WellFormed cfg)
    (fun _ hu => Reachable.wellFormed hu) (Heard.initial hd)
    (fun _ _ _ hwf hok hstep hs => hs.step hwf hstep hok.1 hok.2) h

/-- In every run without a crash in which every notice is posted and every step keeps to
the condition, when no router run is under way, a tenant's pending row that the run has
created has had its notice posted on its pull request. -/
theorem pending_announced {cfg : Settings} {ledger : Ledger} {s : State} {d : DecisionId}
    {row : ReviewDecision} (hd : ledger.nextId ≤ d)
    (h : (reviews cfg ledger).Reachable
      (fun u a => a.noticesArrive = true ∧ u.announceKept cfg d a = true) s)
    (hrest : ∀ r, (s.routers r).atRest = true) (hrow : s.rows d = some row)
    (hpending : row.status = .pending) (htenant : row.installationId.isSome = true) :
    ∃ r, .notified r d (row.notice cfg.unicode d) true ∈ s.events := by
  have hheard := Reachable.heard hd h
  have hidle : ∀ r, ¬ ((s.routers r).announcing d = true ∨ (s.routers r).fresh d = true) := by
    intro r
    have hr := hrest r
    cases hpc : s.routers r <;> simp [hpc, RouterPc.atRest, RouterPc.announcing, RouterPc.fresh] at hr ⊢
  have htold : s.told d = true := by
    by_contra hquiet
    obtain ⟨r, hr⟩ := hheard.pending
      (waits_iff.mpr ⟨Bool.not_eq_true _ ▸ hquiet, row, hrow, htenant, hpending⟩)
    exact hidle r hr
  obtain ⟨e, he, hnotice⟩ := List.any_eq_true.mp htold
  cases e with
  | notified r i comment ok =>
    simp only [Event.told, Bool.and_eq_true, decide_eq_true_eq] at hnotice
    obtain ⟨rfl, rfl⟩ := hnotice
    obtain ⟨row', hrow', rfl⟩ := hheard.notified r comment true he
    cases hrow.symm.trans hrow'
    exact ⟨r, he⟩
  | _ => cases hnotice

/-- A tenant's pull request with this risk. -/
def PRState.tenant (risk : String) : PRState :=
  { PRState.sample risk with installationId := some (.int 5) }

def announcedRun : List Step :=
  routerRun 0 [.start (.tenant "high") true, .select, .insert, .notify (.answered posted)]

def announcedState : State := (reviews .small .empty).after announcedRun (by decide)

theorem announced_reachable : (reviews .small .empty).Reachable
    (fun u a => a.noticesArrive = true ∧ u.announceKept .small 0 a = true) announcedState :=
  Reachable.after (by decide) (by decide)

theorem pending_announced_queued :
    ∃ r, .notified r 0 (((announcedState.rows 0).get (by decide)).notice .ascii 0) true ∈
      announcedState.events :=
  pending_announced (Nat.zero_le _) announced_reachable (fun | 0 => rfl | _ + 1 => rfl)
    (Option.some_get _).symm (by decide) (by decide)

def silentRun : List Step :=
  routerRun 0 [.start (.tenant "low") true, .select, .insert, .post .raised]

def silentState : State := (reviews .small .empty).after silentRun (by decide)

/-- The row is left in the queue, and its tenant is never told of it. -/
theorem raised_post_unannounced :
    (reviews .small .empty).Reachable (fun _ a => a.noticesArrive = true) silentState ∧
      (∀ r, (silentState.routers r).atRest = true) ∧
      (∃ row, silentState.rows 0 = some row ∧ row.status = .pending ∧ row.installationId = some 5) ∧
      silentState.told 0 = false :=
  ⟨Reachable.after _ (by decide), fun | 0 => rfl | _ + 1 => rfl, ⟨_, rfl, by decide, by decide⟩, by decide⟩

end AutoPR.Routing
