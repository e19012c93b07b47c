import Mathlib.Data.List.Nodup
import AutoPR.Routing.Gate
import AutoPR.Routing.Life

/-! The life of a row, read off a state of the store: who has taken it, from the
points where its users are, and its history, from the committed assignments. -/
namespace AutoPR.Routing
open Python UnitOfWork Transition

/-- What a router run has taken a row for. After a refused post of a row that was
failed already, the mark assigns no status. -/
def RouterPc.hold (d : DecisionId) : RouterPc → Option Hold
  | .posting _ (some (i, _)) => if i = d then some .taken else none
  | .marking _ i copy result =>
      if i = d then
        if result.ok then some .accepted
        else if copy.status = .failed then none else some .refused
      else none
  | _ => none

def RequestPc.hold (d : DecisionId) : RequestPc → Option Hold
  | .loading i true | .handing i _ | .posting _ i _ => if i = d then some .taken else none
  | .marking _ i _ result =>
      if i = d then some (if result.ok then .accepted else .refused) else none
  | _ => none

def Event.setting (d : DecisionId) : Event → Option (DecisionStatus × Setter)
  | .set i status setter => if i = d then some (status, setter) else none
  | _ => none

def Event.acceptedPost (d : DecisionId) : Event → Bool
  | .posted _ (some i) _ ok => i = d && ok
  | _ => false

namespace State

def hold (s : State) (d : DecisionId) : Actor → Option Hold
  | .router r => (s.routers r).hold d
  | .request q => (s.requests q).hold d

/-- The committed assignments of the row's status, newest first. -/
def history (s : State) (d : DecisionId) : List (DecisionStatus × Setter) :=
  s.events.filterMap (Event.setting d)

def accepted (s : State) (d : DecisionId) : Nat := s.events.countP (Event.acceptedPost d)

def life (s : State) (d : DecisionId) : Life where
  status := (s.rows d).map (·.status)
  history := s.history d
  hold := s.hold d
  accepted := s.accepted d

end State

@[simp] theorem Life.hand_same (l : Life) (o : Actor) : l.hand o (l.hold o) = l := by
  simp [Life.hand]

theorem Life.hand_none {l : Life} {o : Actor} (h : l.hold o = none) : l.hand o none = l := by
  rw [← h]
  exact Life.hand_same l o

section
variable {Pc : Type} (s : State) (d : DecisionId)

theorem apply_life (eff : Effect Pc) :
    (s.apply eff).life d = {
      status := ((eff.write d).or (s.rows d)).map (·.status)
      history := eff.events.filterMap (Event.setting d) ++ s.history d
      hold := s.hold d
      accepted := eff.events.countP (Event.acceptedPost d) + s.accepted d } := by
  simp only [State.life, State.history, State.accepted, State.apply, List.filterMap_append,
    List.countP_append]
  rfl

theorem applyRouter_life (r : RouterId) (eff : Effect RouterPc) :
    (s.applyRouter r eff).life d = ((s.apply eff).life d).hand (.router r) (eff.pc.hold d) := by
  unfold State.applyRouter State.life Life.hand
  congr 1
  funext o
  cases o with
  | router i =>
    by_cases hi : i = r
    · subst hi
      simp [State.hold]
    · simp [State.hold, State.apply, hi]
  | request q => simp [State.hold, State.apply]

theorem applyRequest_life (q : RequestId) (eff : Effect RequestPc) :
    (s.applyRequest q eff).life d = ((s.apply eff).life d).hand (.request q) (eff.pc.hold d) := by
  unfold State.applyRequest State.life Life.hand
  congr 1
  funext o
  cases o with
  | router r => simp [State.hold, State.apply]
  | request i =>
    by_cases hi : i = q
    · subst hi
      simp [State.hold]
    · simp [State.hold, State.apply, hi]

end

/-- The effect leaves the status of the row as it is and posts nothing of it. -/
structure Effect.Quiet {Pc : Type} (rows : DecisionTable) (d : DecisionId) (eff : Effect Pc) :
    Prop where
  write : ∀ new, eff.write d = some new → ∃ row, rows d = some row ∧ new.status = row.status
  sets : eff.events.filterMap (Event.setting d) = []
  accepts : eff.events.countP (Event.acceptedPost d) = 0

section
variable {s : State} {d : DecisionId} {r : RouterId} {q : RequestId}

theorem Effect.Quiet.life {Pc : Type} {eff : Effect Pc} (h : eff.Quiet s.rows d) :
    (s.apply eff).life d = s.life d := by
  rw [apply_life, h.sets, h.accepts]
  unfold State.life
  congr 1
  · cases hw : eff.write d with
    | none => simp
    | some new =>
      obtain ⟨row, hrow, hst⟩ := h.write new hw
      simp [hrow, hst]
  · rw [Nat.zero_add]

theorem Effect.Quiet.of_nothing {Pc : Type} {eff : Effect Pc} (hwrite : eff.write d = none)
    (hevents : ∀ e ∈ eff.events, e.setting d = none ∧ e.acceptedPost d = false) :
    eff.Quiet s.rows d where
  write new hw := by rw [hwrite] at hw; cases hw
  sets := List.filterMap_eq_nil_iff.mpr fun e he => (hevents e he).1
  accepts := List.countP_eq_zero.mpr fun e he => by simp [(hevents e he).2]

theorem router_quiet {eff : Effect RouterPc} (h : eff.Quiet s.rows d)
    (hhold : eff.pc.hold d = (s.routers r).hold d) : (s.applyRouter r eff).life d = s.life d := by
  rw [applyRouter_life, h.life, hhold]
  exact Life.hand_same (s.life d) (.router r)

theorem request_quiet {eff : Effect RequestPc} (h : eff.Quiet s.rows d)
    (hhold : eff.pc.hold d = (s.requests q).hold d) :
    (s.applyRequest q eff).life d = s.life d := by
  rw [applyRequest_life, h.life, hhold]
  exact Life.hand_same (s.life d) (.request q)

end

def RouterPc.target : RouterPc → Option (DecisionId × ReviewDecision)
  | .posting _ target => target
  | .marking _ d copy _ => some (d, copy)
  | _ => none

/-- The rows from `base` on carry a body to post, a router run posts a row that it read
as pending or failed, and the sweep holds approved rows. -/
structure InHand (base : DecisionId) (s : State) : Prop where
  actionable : ∀ d row, base ≤ d → s.rows d = some row →
    ∃ action : Action, action ≠ .none ∧ row.action = action.value
  target : ∀ r c, (s.routers r).target = some c → c.2.status.takeable = true
  swept : ∀ q copies, s.requests q = .swept copies →
    (copies.map (·.1)).Nodup ∧ ∀ c ∈ copies, c.2.status = .approved

theorem approvedRows_nodup (rows : DecisionTable) (nextId : DecisionId) :
    ((approvedRows rows nextId).map (·.1)).Nodup := by
  unfold approvedRows
  rw [List.map_filterMap]
  apply List.Nodup.filterMap _ List.nodup_range
  intro i j d hi hj
  have heq : ∀ k, d ∈ ((rows k).bind fun row =>
      if row.status = .approved then some (k, row) else none).map (·.1) → d = k := by
    intro k hk
    obtain ⟨c, hc, rfl⟩ := Option.map_eq_some_iff.mp hk
    obtain ⟨row, -, hrow⟩ := Option.bind_eq_some_iff.mp hc
    split at hrow <;> cases hrow
    rfl
  exact (heq i hi).symm.trans (heq j hj)

section
variable {cfg : Settings} {rows : DecisionTable} {nextId : DecisionId}

theorem RouterMove.target {r : RouterId} {pc : RouterPc} {act : RouterAct} {eff : Effect RouterPc}
    (h : RouterMove cfg rows nextId r pc act eff)
    (hnew : ∀ run key row, pc = .inserting run key row → row.status = .pending)
    {c : DecisionId × ReviewDecision} (hc : eff.pc.target = some c) :
    pc.target = some c ∨ c.2.status.takeable = true := by
  cases h with
  | start state stored =>
    obtain heq | ⟨result, heq⟩ | ⟨decision, -, -, ⟨key, heq⟩ | ⟨-, heq⟩⟩ :=
      startRun_cases cfg state stored <;> rw [heq] at hc <;> cases hc
  | found run key i row | refound run key i row =>
    obtain ⟨result, heq⟩ | ⟨-, ⟨comment, -, -, heq⟩ | ⟨-, heq⟩⟩ | ⟨-, hopen, heq⟩ :=
      afterEnqueue_cases cfg.unicode run i row false <;> rw [heq] at hc <;> cases hc
    right
    obtain hcreated | hfailed := hopen
    · cases hcreated
    · simp [hfailed, DecisionStatus.takeable]
  | insert run key row =>
    obtain ⟨result, heq⟩ | ⟨-, ⟨comment, -, -, heq⟩ | ⟨-, heq⟩⟩ | ⟨-, -, heq⟩ :=
      afterEnqueue_cases cfg.unicode run nextId row true <;> rw [heq] at hc <;> cases hc
    right
    simp [hnew run key row rfl, DecisionStatus.takeable]
  | notify run i copy comment outcome =>
    obtain ⟨result, heq⟩ | ⟨-, heq⟩ := afterNotice_cases run i copy <;> rw [heq] at hc <;> cases hc
  | post run target outcome comment | postNothing run target outcome
  | postError run target outcome =>
    left
    cases target with
    | none => first | cases hc | (cases outcome <;> cases hc)
    | some found => first | exact hc | (cases outcome <;> first | exact hc | cases hc)
  | _ => cases hc

theorem RequestMove.swept {q : RequestId} {pc : RequestPc} {act : RequestAct}
    {eff : Effect RequestPc} (h : RequestMove cfg rows nextId q pc act eff)
    {copies : List (DecisionId × ReviewDecision)} (hpc : eff.pc = .swept copies) :
    copies = approvedRows rows nextId := by
  have hfinish : ∀ channel d verb outcome, (Channel.finish channel d verb outcome) ≠ .swept copies := by
    intro channel d verb outcome hpc
    obtain heq | ⟨comment, heq⟩ := finish_cases channel d verb outcome <;>
      cases heq.symm.trans hpc
  have hclaim : ∀ channel d copy won, (afterClaim cfg q channel d copy won).pc ≠ .swept copies := by
    intro channel d copy won hpc
    cases won with
    | true =>
      obtain ⟨-, heq⟩ | heq := afterClaimed_cases cfg channel d copy <;> cases heq.symm.trans hpc
    | false =>
      obtain ⟨outcome, heq⟩ | ⟨-, heq⟩ := afterLost_cases channel d copy
      · exact hfinish _ _ _ _ (heq.symm.trans hpc)
      · cases heq.symm.trans hpc
  cases h with
  | select found hsome hcopies =>
    cases hpc
    exact hcopies.symm
  | begin verb channel d =>
    obtain ⟨outcome, heq⟩ | heq | heq | ⟨repo, n, installation, heq⟩ :=
      startRequest_cases cfg verb channel d <;> cases heq.symm.trans hpc
  | lookNone verb repo n installation d =>
    cases hfinish (.comment repo n installation) d verb .noDecision hpc
  | retryLost channel d => cases hfinish channel d .approve .inProgress hpc
  | mark channel d copy result => cases hfinish channel d .approve _ hpc
  | claimWon channel d held | claimLost channel d held =>
    cases held with
    | none => cases hpc
    | some copy => exact absurd hpc (hclaim _ _ _ _)
  | load => exact absurd hpc (hclaim _ _ _ _)
  | retryWon channel d copy =>
    obtain ⟨-, heq⟩ | heq := afterClaimed_cases cfg channel d (copy.evaluate .failed .approved) <;>
      cases heq.symm.trans hpc
  | post channel d copy outcome => cases outcome <;> cases hpc
  | rejectWon channel d held | rejectLost channel d held =>
    cases held with
    | none => cases hpc
    | some copy => cases hfinish channel d .reject _ hpc
  | loadRejected d won row => cases hfinish .ops d .reject _ hpc
  | reply comment outcome result => cases result <;> cases hpc
  | _ => cases hpc

end

section
variable {cfg : Settings} {base : DecisionId} {s t : State} {a : Step}

theorem InHand.initial (ledger : Ledger) : InHand ledger.nextId (State.initial ledger) where
  actionable d row hd hrow := absurd (ledger.rows_lt d row hrow) (Nat.not_lt.mpr hd)
  target _ _ hc := by cases hc
  swept _ _ hpc := by cases hpc

theorem InHand.step_actionable (hs : InHand base s) (hwf : WellFormed cfg s) (hg : Gated cfg s)
    (h : step cfg s a = some t) (d : DecisionId) (row : ReviewDecision) (hd : base ≤ d)
    (hrow : t.rows d = some row) : ∃ action : Action, action ≠ .none ∧ row.action = action.value := by
  obtain hsame | ⟨rfl, -, r, run, key, new, -, hpc, -, hnew⟩ | ⟨old, new, hold, hnew, hcontent⟩ :=
    step_rows h d
  · exact hs.actionable d row hd (hsame ▸ hrow)
  · cases hnew.symm.trans hrow
    obtain ⟨-, -, hact⟩ := hg.run r run (by rw [hpc]; rfl)
    refine ⟨run.decision.action, ?_, (newDecision_key (hwf.inserting r run key row hpc)).2.2.1⟩
    simpa [RoutingDecision.isActionable] using hact
  · cases hnew.symm.trans hrow
    obtain ⟨action, hact, hvalue⟩ := hs.actionable d old hd hold
    have hsame : row.action = old.action := congrArg (·.action) hcontent
    exact ⟨action, hact, hsame.trans hvalue⟩

theorem InHand.step (hs : InHand base s) (hwf : WellFormed cfg s) (hg : Gated cfg s)
    (h : step cfg s a = some t) : InHand base t where
  actionable := hs.step_actionable hwf hg h
  target r c hc := by
    obtain hsame | ⟨act, eff, rfl, hmove, rfl⟩ := step_routers h r
    · exact hs.target r c (hsame ▸ hc)
    · rw [applyRouter_self] at hc
      have hnew : ∀ run key row, s.routers r = .inserting run key row → row.status = .pending :=
        fun run key row hpc => (newDecision_key (hwf.inserting r run key row hpc)).2.1
      obtain hold | htakeable := hmove.target hnew hc
      · exact hs.target r c hold
      · exact htakeable
  swept q copies hpc := by
    obtain hsame | ⟨act, eff, rfl, hmove, rfl⟩ := step_requests h q
    · exact hs.swept q copies (hsame ▸ hpc)
    · rw [applyRequest_self] at hpc
      rw [hmove.swept hpc]
      exact ⟨approvedRows_nodup _ _, fun c hc => (mem_approvedRows hc).2⟩

end

theorem Reachable.inHand {cfg : Settings} {ledger : Ledger} {ok : State → Step → Prop} {s : State}
    (h : (reviews cfg ledger).Reachable ok s) : InHand ledger.nextId s :=
  Reachable.invariant (fun _ hu => And.intro (Reachable.wellFormed hu) (Reachable.gated hu))
    (InHand.initial ledger) (fun _ _ _ hj _ hstep hs => hs.step hj.1 hj.2 hstep) h

end AutoPR.Routing
