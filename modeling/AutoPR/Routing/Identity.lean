import AutoPR.Library.Delimited
import AutoPR.Routing.Creation
import AutoPR.Routing.Stored

/-! What the key of a decision stands for: the repository, the pull request, the commit and the
action. Runs that agree on these are given one row, whatever else their states hold. -/
namespace AutoPR.Routing
open Python UnitOfWork Transition

/-- What the key reads from the state, its defaults included. -/
structure PRState.Names (state : PRState) (repo : String) (prNumber : Int) (commitSha : String) :
    Prop where
  repo : state.repo.getD (.str "?") = .str repo
  prNumber : state.prNumber.getD (.int 0) = .int prNumber
  commitSha : state.commitSha.getD (.str "?") = .str commitSha

theorem Action.value_inj {action action' : Action} : action.value = action'.value ↔ action = action' := by
  constructor
  · intro h
    have hback := Action.ofValue_value action
    rw [h, Action.ofValue_value action'] at hback
    exact (Except.ok.inj hback).symm
  · exact congrArg _

theorem Action.value_plain (action : Action) : '|' ∉ action.value.toList := by
  cases action <;> decide

section
variable {u : Unicode} {state state' : PRState} {decision decision' : RoutingDecision}
  {repo repo' commitSha commitSha' : String} {prNumber prNumber' : Int}

theorem PRState.Names.dedupKey (h : state.Names repo prNumber commitSha) :
    decision.dedupKey u state =
      .ok ("|".intercalate [repo, toString prNumber, commitSha, decision.action.value]) := by
  unfold RoutingDecision.dedupKey
  rw [h.repo, h.prNumber, h.commitSha]
  rfl

theorem dedupKey_eq_iff (h : state.Names repo prNumber commitSha)
    (h' : state'.Names repo' prNumber' commitSha') (hrepo : '|' ∉ repo.toList)
    (hsha : '|' ∉ commitSha.toList) (hrepo' : '|' ∉ repo'.toList)
    (hsha' : '|' ∉ commitSha'.toList) :
    decision.dedupKey u state = decision'.dedupKey u state' ↔
      repo = repo' ∧ prNumber = prNumber' ∧ commitSha = commitSha' ∧
        decision.action = decision'.action := by
  have hparts : ∀ (first sha : String) (n : Int) (action : Action), '|' ∉ first.toList →
      '|' ∉ sha.toList → ∀ part ∈ [first, toString n, sha, action.value], '|' ∉ part.toList := by
    intro first sha n action hfirst hlast
    simp only [List.forall_mem_cons]
    exact ⟨hfirst, Delimited.not_mem_toString n (by decide) (by decide), hlast, action.value_plain,
      nofun⟩
  rw [h.dedupKey, h'.dedupKey, Except.ok.injEq,
    Delimited.intercalate_inj (c := '|') rfl (List.cons_ne_nil _ _) (List.cons_ne_nil _ _)
      (hparts _ _ _ _ hrepo hsha) (hparts _ _ _ _ hrepo' hsha')]
  simp only [List.cons.injEq, and_true, Delimited.toString_inj, Action.value_inj]

theorem dedupKey_action_iff (h : state.Names repo prNumber commitSha)
    (h' : state'.Names repo prNumber commitSha) :
    decision.dedupKey u state = decision'.dedupKey u state' ↔
      decision.action = decision'.action := by
  rw [h.dedupKey, h'.dedupKey, Except.ok.injEq]
  exact (Delimited.intercalate_last_inj [repo, toString prNumber, commitSha] _ _).trans
    Action.value_inj

end

def RouterPc.asks : RouterPc → Option (RouterRun × String)
  | .selecting run key | .inserting run key _ | .reselecting run key => some (run, key)
  | _ => none

/-- In this step the run is given the row, and told whether it has created it. -/
def State.Gives (s : State) (a : Step) (run : RouterRun) (d : DecisionId) (created : Bool) : Prop :=
  ∃ r act key, a = .router r act ∧ (s.routers r).run = some run ∧
    s.enqueued a = some (key, d, created)

def Keyed (cfg : Settings) (s : State) : Prop :=
  ∀ r run key, (s.routers r).asks = some (run, key) →
    run.decision.dedupKey cfg.unicode run.state = .ok key

section
variable {cfg : Settings} {s t : State} {a : Step} {run : RouterRun} {key : String}

theorem startRun_asks {state : PRState} {stored : Bool}
    (h : (startRun cfg state stored).asks = some (run, key)) :
    run.decision.dedupKey cfg.unicode run.state = .ok key := by
  unfold startRun at h
  cases hroute : route cfg state with
  | error e =>
    rw [hroute] at h
    cases h
  | ok decision =>
    rw [hroute] at h
    dsimp only at h
    split at h
    · cases h
    · split at h
      · cases hkey : decision.dedupKey cfg.unicode state with
        | error e =>
          rw [hkey] at h
          cases h
        | ok key' =>
          rw [hkey] at h
          cases h
          exact hkey
      · split at h <;> cases h

theorem RouterMove.asks {rows : DecisionTable} {nextId : DecisionId} {r : RouterId} {pc : RouterPc}
    {act : RouterAct} {eff : Effect RouterPc} (h : RouterMove cfg rows nextId r pc act eff)
    (hasks : eff.pc.asks = some (run, key)) :
    pc.asks = some (run, key) ∨ run.decision.dedupKey cfg.unicode run.state = .ok key := by
  cases h with
  | start state stored => exact .inr (startRun_asks hasks)
  | build | insertTaken => exact .inl hasks
  | found run' key' d row | refound run' key' d row | insert run' key' row =>
    obtain ⟨result, heq⟩ | ⟨-, ⟨comment, -, -, heq⟩ | ⟨-, heq⟩⟩ | ⟨-, -, heq⟩ :=
      afterEnqueue_cases cfg.unicode run' _ _ _ <;> rw [heq] at hasks <;> cases hasks
  | notify run' d copy comment outcome =>
    obtain ⟨result, heq⟩ | ⟨-, heq⟩ := afterNotice_cases run' d copy <;> rw [heq] at hasks <;>
      cases hasks
  | post run' target outcome comment | postNothing run' target outcome
  | postError run' target outcome =>
    cases target <;> first | cases hasks | (cases outcome <;> cases hasks)
  | _ => cases hasks

theorem Keyed.step (hs : Keyed cfg s) (h : step cfg s a = some t) : Keyed cfg t := by
  intro r run key hasks
  obtain hsame | ⟨act, eff, rfl, hmove, rfl⟩ := step_routers h r
  · exact hs r run key (hsame ▸ hasks)
  · rw [applyRouter_self] at hasks
    obtain hold | hkey := hmove.asks hasks
    · exact hs r run key hold
    · exact hkey

theorem Reachable.keyed {ledger : Ledger} {ok : State → Step → Prop}
    (h : (reviews cfg ledger).Reachable ok s) : Keyed cfg s :=
  Reachable.invariant (J := fun _ => True) (fun _ _ => trivial)
    (fun _ _ _ hasks => by cases hasks) (fun _ _ _ _ _ hstep hs => hs.step hstep) h

end

section
variable {cfg : Settings} {s : State} {r : RouterId} {act : RouterAct} {run : RouterRun}
  {a : Step} {d : DecisionId} {key : String} {created : Bool} {row : ReviewDecision}

theorem enqueued_asks (h : s.enqueued (.router r act) = some (key, d, created))
    (hrun : (s.routers r).run = some run) : (s.routers r).asks = some (run, key) := by
  cases hpc : s.routers r with
  | selecting run' key' | reselecting run' key' =>
    rw [hpc] at hrun
    cases hrun
    cases act with
    | select =>
      simp only [State.enqueued, hpc] at h
      obtain ⟨found, -, heq⟩ := Option.map_eq_some_iff.mp h
      cases heq
      rfl
    | insert => simp [State.enqueued, hpc] at h
    | _ => cases h
  | inserting run' key' row =>
    rw [hpc] at hrun
    cases hrun
    cases act with
    | insert =>
      simp only [State.enqueued, hpc] at h
      split at h
      · cases h
        rfl
      · cases h
    | select => simp [State.enqueued, hpc] at h
    | _ => cases h
  | _ => cases act <;> first | cases h | simp [State.enqueued, hpc] at h

theorem enqueued_key (hwf : WellFormed cfg s) (hrow : s.rows d = some row)
    (h : s.enqueued a = some (key, d, created)) : row.dedupKey = key := by
  obtain ⟨-, found, hfound⟩ | ⟨-, rfl, -⟩ := enqueued_cases h
  · obtain ⟨hfound, hkey⟩ := findDecision_eq_some hfound
    cases hrow.symm.trans hfound
    exact hkey
  · cases hwf.rows_nextId.symm.trans hrow

theorem State.Gives.asked (hs : Keyed cfg s) (h : s.Gives a run d created) :
    ∃ key, s.enqueued a = some (key, d, created) ∧
      run.decision.dedupKey cfg.unicode run.state = .ok key := by
  obtain ⟨r, act, key, rfl, hrun, hgiven⟩ := h
  exact ⟨key, hgiven, hs r run key (enqueued_asks hgiven hrun)⟩

/-- Two runs for one commit are given one row exactly when they have decided on one action,
and then only the first of them can have created it. -/
theorem one_row_per_action {ledger : Ledger} {t u : State} {b : Step} {run' : RouterRun}
    {d' : DecisionId} {created' : Bool} {repo commitSha : String} {prNumber : Int}
    (hs : (reviews cfg ledger).Reachable anyStep s) (hgives : s.Gives a run d created)
    (hstep : step cfg s a = some t) (hlater : (reviews cfg ledger).Run anyStep t u)
    (hgives' : u.Gives b run' d' created') (hnames : run.state.Names repo prNumber commitSha)
    (hnames' : run'.state.Names repo prNumber commitSha) :
    (d' = d ↔ run'.decision.action = run.decision.action) ∧
      (run'.decision.action = run.decision.action → created' = false) := by
  have ht : (reviews cfg ledger).Reachable anyStep t := Reachable.step hs trivial hstep
  have hu : (reviews cfg ledger).Reachable anyStep u := Reachable.run ht hlater
  obtain ⟨key, hgiven, hkey⟩ := hgives.asked (Reachable.keyed hs)
  obtain ⟨key', hgiven', hkey'⟩ := hgives'.asked (Reachable.keyed hu)
  -- the row of the first run is still there, under its key
  obtain ⟨row, hrow, hrowkey⟩ := enqueued_row (Reachable.wellFormed hs) hstep hgiven
  obtain ⟨new, hnew, hcontent⟩ := Run.rows_persist ht hlater hrow
  have hnewkey : new.dedupKey = key := (congrArg (·.dedupKey) hcontent).trans hrowkey
  have haction : key' = key ↔ run'.decision.action = run.decision.action := by
    rw [← dedupKey_action_iff hnames' hnames, hkey, hkey', Except.ok.injEq]
  have hsame : key' = key → d' = d ∧ created' = false := by
    rintro rfl
    rw [← hnewkey] at hgiven'
    exact enqueued_known (Reachable.wellFormed hu) hnew hgiven'
  refine ⟨⟨?_, fun h => (hsame (haction.mpr h)).1⟩, fun h => (hsame (haction.mpr h)).2⟩
  rintro rfl
  exact haction.mp ((enqueued_key (Reachable.wellFormed hu) hnew hgiven').symm.trans hnewkey)

end

end AutoPR.Routing
