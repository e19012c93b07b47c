import AutoPR.Library.Liveness
import AutoPR.Routing.Rendering
import AutoPR.Routing.Steps

/-! Whether the node returns, whatever the database and the client do. Its `try` blocks cover the
store and the posts beside it; the policy, and the post without a store, stand outside. -/
namespace AutoPR.Routing
open Python Liveness

def takenLabels : List String :=
  ["none", "queued_for_approval", "enqueue_failed", "already_executed", "already_rejected",
    "already_queued", "executed", "action_failed"]

def RouterResult.tells (decision : RoutingDecision) (result : RouterResult) : Prop :=
  result.routingAction = decision.action.value ∧ result.actionTaken ∈ takenLabels

/-- The node has returned such a result. -/
def Answers (decision : RoutingDecision) (pc : RouterPc) : Prop :=
  ∃ result, pc = .returned result ∧ result.tells decision

/-- The process does not die meanwhile; the rows are as the environment has them at each step. -/
def routerNext (cfg : Settings) (r : RouterId) (env : DecisionTable × DecisionId)
    (pc pc' : RouterPc) : Prop :=
  ∃ act eff, act ≠ .crash ∧ routerStep cfg env.1 env.2 r pc act = some eff ∧ eff.pc = pc'

/-- A point inside of the `try` blocks, or behind them. -/
def Serves (decision : RoutingDecision) : RouterPc → Prop
  | .selecting run _ | .inserting run _ _ | .reselecting run _ | .notifying run _ _ _
  | .requeueing run _ | .posting run (some _) | .marking run _ _ _ => run.decision = decision
  | .returned result => result.tells decision
  | .idle | .posting _ none | .raised | .crashed => False

def RouterPc.rank : RouterPc → ℕ
  | .idle => 7
  | .selecting _ _ => 6
  | .inserting _ _ _ => 5
  | .reselecting _ _ => 4
  | .notifying _ _ _ _ | .posting _ _ => 3
  | .requeueing _ _ | .marking _ _ _ _ => 2
  | .returned _ | .raised | .crashed => 0

section
variable {cfg : Settings} {u : Unicode} {r : RouterId} {run : RouterRun} {d : DecisionId}
  {copy : ReviewDecision} {decision : RoutingDecision} {pc pc' : RouterPc}

theorem took_tells (target : Option DecisionId) {label : String} (h : label ∈ takenLabels) :
    (run.took target label).tells run.decision := ⟨rfl, h⟩

theorem failed_tells (target : Option DecisionId) : (run.failed target).tells run.decision := by
  unfold RouterRun.failed
  split
  · exact took_tells target (by simp [takenLabels])
  · exact took_tells target (by simp [takenLabels])

theorem afterNotice_serves :
    Serves run.decision (afterNotice run d copy) ∧ (afterNotice run d copy).rank ≤ 2 := by
  unfold afterNotice
  split
  · exact ⟨rfl, Nat.le_refl 2⟩
  · exact ⟨took_tells _ (by simp [takenLabels]), Nat.zero_le 2⟩

theorem afterEnqueue_serves {created : Bool} :
    Serves run.decision (afterEnqueue u run d copy created) ∧
      (afterEnqueue u run d copy created).rank ≤ 3 := by
  unfold afterEnqueue
  split
  · exact ⟨⟨rfl, by simp [takenLabels, RouterRun.took]⟩, Nat.zero_le 3⟩
  · split
    · split
      · exact ⟨rfl, Nat.le_refl 3⟩
      · obtain ⟨hserves, hrank⟩ := @afterNotice_serves run d copy
        exact ⟨hserves, Nat.le_succ_of_le hrank⟩
    · split
      · exact ⟨took_tells _ (by simp [takenLabels]), Nat.zero_le 3⟩
      · split
        · exact ⟨took_tells _ (by simp [takenLabels]), Nat.zero_le 3⟩
        · exact ⟨rfl, Nat.le_refl 3⟩

theorem afterPost_serves (outcome : PostOutcome) :
    Serves run.decision (afterPost run (some (d, copy)) outcome) ∧
      (afterPost run (some (d, copy)) outcome).rank ≤ 2 := by
  cases outcome with
  | answered result => exact ⟨rfl, Nat.le_refl 2⟩
  | raised => exact ⟨failed_tells _, Nat.zero_le 2⟩

theorem dbError_serves {env : DecisionTable × DecisionId} {eff : Effect RouterPc}
    (h : Serves decision pc) (hstep : routerStep cfg env.1 env.2 r pc .dbError = some eff) :
    Serves decision eff.pc ∧ eff.pc.rank < pc.rank := by
  cases pc with
  | selecting | inserting | reselecting | requeueing | marking =>
    cases hstep
    cases h
    exact ⟨failed_tells _, by simp [RouterPc.rank]⟩
  | idle | notifying | posting | returned | raised | crashed => cases hstep

theorem serves_step {env : DecisionTable × DecisionId} (h : Serves decision pc)
    (hnext : routerNext cfg r env pc pc') : Serves decision pc' ∧ pc'.rank < pc.rank := by
  obtain ⟨act, eff, hcrash, hstep, rfl⟩ := hnext
  have henqueued (run : RouterRun) (d : DecisionId) (copy : ReviewDecision) (created : Bool)
      (n : ℕ) (hn : 3 < n) (hrun : run.decision = decision) :
      Serves decision (afterEnqueue cfg.unicode run d copy created) ∧
        (afterEnqueue cfg.unicode run d copy created).rank < n := by
    obtain ⟨hserves, hrank⟩ := @afterEnqueue_serves cfg.unicode run d copy created
    rw [hrun] at hserves
    exact ⟨hserves, by omega⟩
  have hposted (run : RouterRun) (target : Option (DecisionId × ReviewDecision))
      (outcome : PostOutcome) (hrun : Serves decision (.posting run target)) :
      Serves decision (afterPost run target outcome) ∧ (afterPost run target outcome).rank < 3 := by
    cases target with
    | none => cases hrun
    | some row =>
      obtain ⟨d, copy⟩ := row
      obtain ⟨hserves, hrank⟩ := @afterPost_serves run d copy outcome
      cases hrun
      exact ⟨hserves, Nat.lt_succ_of_le hrank⟩
  cases routerStep_move hstep with
  | start => cases h
  | found run key d row hfind => exact henqueued run d row false _ (by simp [RouterPc.rank]) h
  | build run key row hfind hnew => exact ⟨h, by simp [RouterPc.rank]⟩
  | buildError run key e hfind hnew =>
    cases h
    exact ⟨failed_tells none, by simp [RouterPc.rank]⟩
  | insert run key row hfind => exact henqueued run _ row true _ (by simp [RouterPc.rank]) h
  | insertTaken run key row d old hfind => exact ⟨h, by simp [RouterPc.rank]⟩
  | refound run key d row hfind => exact henqueued run d row false _ (by simp [RouterPc.rank]) h
  | refoundNone run key hfind =>
    cases h
    exact ⟨failed_tells none, by simp [RouterPc.rank]⟩
  | notify run d copy comment outcome =>
    obtain ⟨hserves, hrank⟩ := @afterNotice_serves run d copy
    cases h
    refine ⟨hserves, ?_⟩
    simp only [RouterPc.rank] at hrank ⊢
    omega
  | requeueWon run d row new hrow hnew =>
    cases h
    exact ⟨took_tells _ (by simp [takenLabels]), by simp [RouterPc.rank]⟩
  | requeueLost run d hrow =>
    cases h
    exact ⟨took_tells _ (by simp [takenLabels]), by simp [RouterPc.rank]⟩
  | post run target outcome comment hcomment => exact hposted run target outcome h
  | postNothing run target outcome hcomment => exact hposted run target (.answered noAction) h
  | postError run target outcome e hcomment => exact hposted run target .raised h
  | mark run d copy result row hrow =>
    cases h
    refine ⟨⟨rfl, ?_⟩, by simp [RouterPc.rank]⟩
    unfold RouterRun.took
    dsimp only
    split
    · simp [takenLabels]
    · simp [takenLabels]
  | markMissing run d copy result hrow =>
    cases h
    exact ⟨failed_tells _, by simp [RouterPc.rank]⟩
  | dbError pc result hidle hpost => exact dbError_serves h hstep
  | crash => exact absurd rfl hcrash

theorem serves_on (h : Serves decision pc) :
    Answers decision pc ∨ ∀ env, ∃ pc', routerNext cfg r env pc pc' := by
  cases pc with
  | returned result => exact .inl ⟨result, rfl, h⟩
  | idle | raised | crashed => cases h
  | selecting | inserting | reselecting | requeueing | marking =>
    right
    intro env
    exact ⟨_, .dbError, _, by simp, rfl, rfl⟩
  | notifying run d copy comment =>
    right
    intro env
    exact ⟨_, .notify .raised, _, by simp, rfl, rfl⟩
  | posting run target =>
    right
    intro env
    have hstep : ∃ eff, routerStep cfg env.1 env.2 r (.posting run target) (.post .raised) =
        some eff := by
      simp only [routerStep]
      split
      · exact ⟨_, rfl⟩
      · exact ⟨_, rfl⟩
      · exact ⟨_, rfl⟩
    obtain ⟨eff, heff⟩ := hstep
    exact ⟨_, .post .raised, eff, by simp, heff, rfl⟩

theorem serves_answers (h : Serves decision pc) :
    Inevitable (routerNext cfg r) (Answers decision) pc := by
  apply Inevitable.of_rank RouterPc.rank _ _ h
  · intro s hs
    exact serves_on hs
  · intro env s t hs hnext
    exact serves_step hs hnext

/-- A review that is posted at once. -/
def actsAtOnce (cfg : Settings) (state : PRState) : Bool :=
  !state.isCi && decide (riskRank (state.riskScore.getD (.str "medium")) ≤
    riskRank (.str cfg.autoCommentMaxRisk)) && !cfg.handoffMode

theorem route_atOnce {state : PRState} (h : route cfg state = .ok decision) :
    (decision.isActionable && !decision.requiresApproval) = actsAtOnce cfg state ∧
      (actsAtOnce cfg state = true → decision.action = .commentReview) := by
  unfold route at h
  unfold actsAtOnce
  cases hci : state.isCi with
  | true =>
    rw [hci, if_pos rfl] at h
    refine ⟨?_, by simp⟩
    unfold routeCi at h
    dsimp only at h
    split at h
    · obtain ⟨body, -, h⟩ := ok_of_bind h
      cases h
      rfl
    · split at h
      · cases h
        rfl
      · obtain ⟨body, -, h⟩ := ok_of_bind h
        cases h
        rfl
  | false =>
    rw [hci, if_neg Bool.false_ne_true] at h
    unfold routePr at h
    obtain ⟨body, -, h⟩ := ok_of_bind h
    cases h
    refine ⟨?_, fun _ => rfl⟩
    simp [RoutingDecision.isActionable]

theorem posting_raises {state : PRState} (haction : decision.action = .commentReview)
    (env : DecisionTable × DecisionId) :
    routerNext cfg r env (.posting ⟨state, decision⟩ none) .raised := by
  refine ⟨.post .raised, ?_⟩
  have hcomment : RouterRun.comment cfg.unicode ⟨state, decision⟩ ≠ .ok none := by
    unfold RouterRun.comment executeDecision
    rw [haction]
    intro h
    obtain ⟨n, -, h⟩ := ok_of_bind h
    cases h
  simp only [routerStep]
  cases hmade : RouterRun.comment cfg.unicode ⟨state, decision⟩ with
  | error e => exact ⟨_, by simp, rfl, rfl⟩
  | ok made =>
    cases made with
    | none => exact absurd hmade hcomment
    | some comment => exact ⟨_, by simp, rfl, rfl⟩

theorem not_answers_raised : ¬ Inevitable (routerNext cfg r) (Answers decision) .raised := by
  intro h
  have hgoal := h.of_stuck (e := (fun _ => none, 0)) (fun pc' hnext => by
    obtain ⟨act, eff, hcrash, hstep, -⟩ := hnext
    cases act <;> cases hstep)
  obtain ⟨result, hresult, -⟩ := hgoal
  cases hresult

/-- The node returns for a decision, whatever happens, exactly when the policy can render it and
no post is made outside of the `try` blocks. -/
theorem startRun_answers_iff {state : PRState} {stored : Bool} :
    (∃ decision, route cfg state = .ok decision ∧
      Inevitable (routerNext cfg r) (Answers decision) (startRun cfg state stored)) ↔
    renders state = true ∧ (stored = true ∨ actsAtOnce cfg state = false) := by
  rw [← @returns_route state cfg]
  constructor
  · rintro ⟨decision, hroute, hanswers⟩
    refine ⟨⟨decision, hroute⟩, ?_⟩
    by_contra hcond
    simp only [not_or, Bool.not_eq_true, Bool.not_eq_false] at hcond
    obtain ⟨hstored, hatOnce⟩ := hcond
    obtain ⟨hauto, haction⟩ := route_atOnce hroute
    rw [hatOnce, Bool.and_eq_true, Bool.not_eq_true'] at hauto
    have hposting : startRun cfg state stored = .posting ⟨state, decision⟩ none := by
      unfold startRun
      rw [hroute, hstored]
      dsimp only
      rw [hauto.1, hauto.2]
      rfl
    rw [hposting] at hanswers
    apply @not_answers_raised cfg r decision
    apply hanswers.step (e := (fun _ => none, 0)) _ (posting_raises (haction hatOnce) _)
    rintro ⟨result, hresult, -⟩
    cases hresult
  · rintro ⟨⟨decision, hroute⟩, hcond⟩
    refine ⟨decision, hroute, serves_answers ?_⟩
    obtain ⟨hauto, -⟩ := route_atOnce hroute
    unfold startRun
    rw [hroute]
    dsimp only
    split
    · exact ⟨rfl, by simp [takenLabels, RoutingDecision.base]⟩
    · rename_i hactionable
      split
      · split
        · rfl
        · exact failed_tells none
      · rename_i hstored
        rw [hcond.resolve_left hstored] at hauto
        have hgated : decision.requiresApproval = true := by
          cases hgated : decision.requiresApproval with
          | true => rfl
          | false =>
            rw [hgated, Bool.not_false, Bool.and_true] at hauto
            rw [hauto] at hactionable
            exact absurd rfl hactionable
        rw [if_pos hgated]
        exact took_tells none (by simp [takenLabels])

end

end AutoPR.Routing
