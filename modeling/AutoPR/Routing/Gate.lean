import AutoPR.Routing.Invariant

/-! The human gate. The policy lets a body through without approval only for a
low-risk review outside hand-off mode, and the router hands only such a body to
the client; of a gated decision nothing leaves but the notice. -/
namespace AutoPR.Routing
open Python UnitOfWork Transition

/-- What the policy has checked when it asks for no approval. -/
structure AutoSafe (cfg : Settings) (state : PRState) (decision : RoutingDecision) : Prop where
  action : decision.action = .commentReview
  failureType : (state.failureType.getD .none).isNone = true
  ciLogs : (state.ciLogs.getD .none).truthy = false
  ciEvent : (state.ciEvent.getD .none).truthy = false
  handoff : cfg.handoffMode = false
  risk : riskRank decision.risk ≤ riskRank (.str cfg.autoCommentMaxRisk)

section
variable {cfg : Settings} {state : PRState} {decision : RoutingDecision}

theorem routeCi_gated (h : routeCi cfg state = .ok decision) :
    decision.requiresApproval = true ∨ decision.action = .none := by
  unfold routeCi at h
  simp only [bind, Except.bind, pure, Except.pure] at h
  split at h
  · cases hbody : renderFixBody cfg.unicode state with
    | error e =>
      rw [hbody] at h
      cases h
    | ok body =>
      rw [hbody] at h
      cases h
      exact .inl rfl
  · split at h
    · cases h
      exact .inr rfl
    · cases hbody : renderEscalationBody cfg.unicode state with
      | error e =>
        rw [hbody] at h
        cases h
      | ok body =>
        rw [hbody] at h
        cases h
        exact .inl rfl

theorem routePr_auto (h : routePr cfg state = .ok decision)
    (hauto : decision.requiresApproval = false) :
    decision.action = .commentReview ∧ cfg.handoffMode = false ∧
      riskRank decision.risk ≤ riskRank (.str cfg.autoCommentMaxRisk) := by
  unfold routePr at h
  simp only [bind, Except.bind, pure, Except.pure] at h
  cases hbody : renderReviewBody cfg.unicode state with
  | error e =>
    rw [hbody] at h
    cases h
  | ok body =>
    rw [hbody] at h
    cases h
    simp only [Bool.not_eq_false', Bool.and_eq_true, decide_eq_true_eq, Bool.not_eq_true'] at hauto
    exact ⟨rfl, hauto.2, hauto.1⟩

theorem route_auto (h : route cfg state = .ok decision) (hact : decision.isActionable = true)
    (hauto : decision.requiresApproval = false) : AutoSafe cfg state decision := by
  unfold route at h
  split at h
  · obtain hgated | hnone := routeCi_gated h
    · cases hgated.symm.trans hauto
    · simp [RoutingDecision.isActionable, hnone] at hact
  · rename_i hci
    simp only [PRState.isCi, Bool.or_eq_true, Bool.not_eq_true', not_or, Bool.not_eq_false,
      Bool.not_eq_true] at hci
    obtain ⟨haction, hhandoff, hrisk⟩ := routePr_auto h hauto
    exact ⟨haction, hci.1.1, hci.1.2, hci.2, hhandoff, hrisk⟩

end

def RouterPc.run : RouterPc → Option RouterRun
  | .idle | .returned _ | .raised | .crashed => none
  | .selecting run _ | .inserting run _ _ | .reselecting run _ | .notifying run _ _ _
  | .requeueing run _ | .posting run _ | .marking run _ _ _ => some run

def RouterPc.silent : RouterPc → Bool
  | .idle | .selecting _ _ | .inserting _ _ _ | .reselecting _ _ | .notifying _ _ _ _
  | .posting _ _ => true
  | .requeueing _ _ | .marking _ _ _ _ | .returned _ | .raised | .crashed => false

def RouterPc.Allowed (u : Unicode) : RouterPc → Prop
  | .posting run _ => run.decision.requiresApproval = false
  | .notifying run d copy comment =>
      run.decision.requiresApproval = true ∧ noticeComment u run.state d copy = some comment
  | _ => True

def Event.comments (r : RouterId) : Event → Bool
  | .posted (.router i) _ _ _ | .notified i _ _ _ => i = r
  | _ => false

/-- The calls of `post_issue_comment` that a router run has made. -/
def State.comments (s : State) (r : RouterId) : Nat := s.events.countP (Event.comments r)

/-- The events of a router run that say what it was given and what it sent. -/
def Event.router : Event → Option RouterId
  | .started r _ _ | .posted (.router r) _ _ _ | .notified r _ _ _ => some r
  | _ => none

section
variable {cfg : Settings} {rows : DecisionTable} {nextId : DecisionId} {r : RouterId}
  {pc : RouterPc} {act : RouterAct} {eff : Effect RouterPc}

theorem markEvents_cases {d : DecisionId} {copy : ReviewDecision} {status : DecisionStatus}
    {setter : Setter} {e : Event} (h : e ∈ markEvents d copy status setter) :
    e = .set d status setter ∧ status ≠ copy.status := by
  unfold markEvents at h
  split at h
  · cases h
  · rename_i hne
    exact ⟨List.mem_singleton.mp h, hne⟩

theorem RouterMove.event (h : RouterMove cfg rows nextId r pc act eff) {e : Event}
    (he : e ∈ eff.events) :
    (∃ state stored, pc = .idle ∧ e = .started r state stored ∧ eff.pc = startRun cfg state stored) ∨
    (∃ d status setter, e = .set d status setter) ∨
    (∃ run d copy comment ok, pc = .notifying run d copy comment ∧ e = .notified r d comment ok) ∨
    ∃ run target comment ok, pc = .posting run target ∧
      run.comment cfg.unicode = .ok (some comment) ∧
      e = .posted (.router r) (target.map (·.1)) comment ok := by
  cases h with
  | start state stored => exact .inl ⟨state, stored, rfl, List.mem_singleton.mp he, rfl⟩
  | insert run key row => exact .inr (.inl ⟨_, _, _, List.mem_singleton.mp he⟩)
  | requeueWon run d row new => exact .inr (.inl ⟨_, _, _, List.mem_singleton.mp he⟩)
  | mark run d copy result row => exact .inr (.inl ⟨_, _, _, (markEvents_cases he).1⟩)
  | notify run d copy comment outcome =>
    exact .inr (.inr (.inl ⟨run, d, copy, comment, _, rfl, List.mem_singleton.mp he⟩))
  | post run target outcome comment hcomment =>
    exact .inr (.inr (.inr ⟨run, target, comment, _, rfl, hcomment, List.mem_singleton.mp he⟩))
  | _ => cases he

theorem RequestMove.event_router {q : RequestId} {qpc : RequestPc} {qact : RequestAct}
    {qeff : Effect RequestPc} (h : RequestMove cfg rows nextId q qpc qact qeff) {e : Event}
    (he : e ∈ qeff.events) : e.router = none := by
  have hclaim : ∀ channel d copy won e, e ∈ (afterClaim cfg q channel d copy won).events →
      e.router = none := by
    intro channel d copy won e he
    cases won with
    | true =>
      cases List.mem_singleton.mp he
      rfl
    | false => cases he
  have hnext : ∀ channel d held won e, e ∈ (claimNext cfg q channel d held won).events →
      e.router = none := by
    intro channel d held won e he
    cases held with
    | none => cases he
    | some copy => exact hclaim _ _ _ _ e he
  cases h with
  | begin | beginRequeue | beginSweep | post | reply | rejectWon | requeueWon =>
    cases List.mem_singleton.mp he
    rfl
  | claimWon channel d held row new =>
    obtain hold | hset := List.mem_append.mp he
    · exact hnext _ _ _ _ e hold
    · cases List.mem_singleton.mp hset
      rfl
  | claimLost channel d held => exact hnext _ _ _ _ e he
  | load d won row => exact hclaim _ _ _ _ e he
  | retryWon channel d copy row new =>
    obtain rfl | hset := List.mem_cons.mp he
    · rfl
    · cases List.mem_singleton.mp hset
      rfl
  | hand d copy row | mark channel d copy result row =>
    rw [(markEvents_cases he).1]
    rfl
  | commit copies =>
    obtain ⟨c, -, rfl⟩ := List.mem_map.mp he
    rfl
  | _ => cases he

theorem RouterMove.run (h : RouterMove cfg rows nextId r pc act eff) {run : RouterRun}
    (hrun : eff.pc.run = some run) :
    pc.run = some run ∨ ∃ stored, act = .start run.state stored ∧
      eff.events = [.started r run.state stored] ∧ route cfg run.state = .ok run.decision ∧
      run.decision.isActionable = true := by
  cases h with
  | start state stored =>
    obtain heq | ⟨result, heq⟩ | ⟨decision, hroute, hact, ⟨key, heq⟩ | ⟨-, heq⟩⟩ :=
      startRun_cases cfg state stored <;> rw [heq] at hrun <;> cases hrun
    all_goals exact .inr ⟨stored, rfl, rfl, hroute, hact⟩
  | found run' key d row | refound run' key d row | insert run' key row =>
    left
    obtain ⟨result, heq⟩ | ⟨-, ⟨comment, -, -, heq⟩ | ⟨-, heq⟩⟩ | ⟨-, -, heq⟩ :=
      afterEnqueue_cases cfg.unicode run' _ _ _ <;> rw [heq] at hrun <;> cases hrun <;> rfl
  | notify run' d copy comment outcome =>
    obtain ⟨result, heq⟩ | ⟨-, heq⟩ := afterNotice_cases run' d copy <;> rw [heq] at hrun <;>
      cases hrun
    exact .inl rfl
  | post run' target outcome comment | postNothing run' target outcome
  | postError run' target outcome =>
    cases target <;> first | cases hrun | (cases outcome <;> cases hrun)
    all_goals exact .inl rfl
  | build | insertTaken =>
    cases hrun
    exact .inl rfl
  | _ => cases hrun

theorem RouterMove.allowed (h : RouterMove cfg rows nextId r pc act eff) :
    eff.pc.Allowed cfg.unicode := by
  cases h with
  | start state stored =>
    obtain heq | ⟨result, heq⟩ | ⟨decision, -, -, ⟨key, heq⟩ | ⟨happ, heq⟩⟩ :=
      startRun_cases cfg state stored <;> rw [heq]
    · trivial
    · trivial
    · trivial
    · exact happ
  | found run key d row | refound run key d row | insert run key row =>
    obtain ⟨result, heq⟩ | ⟨happ, ⟨comment, -, hnotice, heq⟩ | ⟨-, heq⟩⟩ | ⟨happ, -, heq⟩ :=
      afterEnqueue_cases cfg.unicode run _ _ _ <;> rw [heq]
    · trivial
    · exact ⟨happ, hnotice⟩
    · trivial
    · exact happ
  | notify run d copy comment outcome =>
    obtain ⟨result, heq⟩ | ⟨-, heq⟩ := afterNotice_cases run d copy <;> rw [heq] <;> trivial
  | post run target outcome comment | postNothing run target outcome
  | postError run target outcome =>
    cases target <;> first | trivial | (cases outcome <;> trivial)
  | _ => trivial

theorem RouterMove.silent (h : RouterMove cfg rows nextId r pc act eff) (i : RouterId) :
    (eff.events.countP (Event.comments i) = 0 ∧ (eff.pc.silent = true → pc.silent = true)) ∨
    (i = r ∧ eff.events.countP (Event.comments i) = 1 ∧ pc.silent = true ∧ eff.pc.silent = false) ∨
    (i ≠ r ∧ eff.events.countP (Event.comments i) = 0) := by
  by_cases hi : i = r
  · subst hi
    cases h with
    | notify run d copy comment outcome =>
      refine .inr (.inl ⟨rfl, by simp [Event.comments], rfl, ?_⟩)
      obtain ⟨result, heq⟩ | ⟨-, heq⟩ := afterNotice_cases run d copy <;> rw [heq] <;> rfl
    | post run target outcome comment =>
      refine .inr (.inl ⟨rfl, by simp [Event.comments], rfl, ?_⟩)
      cases target <;> cases outcome <;> rfl
    | start | found | refound | insert | build | insertTaken => exact .inl ⟨rfl, fun _ => rfl⟩
    | postNothing | postError => exact .inl ⟨rfl, fun _ => rfl⟩
    | mark run d copy result row =>
      refine .inl ⟨List.countP_eq_zero.mpr fun e he => ?_, fun hs => by cases hs⟩
      rw [(markEvents_cases he).1]
      simp [Event.comments]
    | _ => exact .inl ⟨rfl, fun hs => by cases hs⟩
  · right
    right
    refine ⟨hi, List.countP_eq_zero.mpr fun e he => ?_⟩
    obtain ⟨_, _, -, rfl, -⟩ | ⟨_, _, _, rfl⟩ | ⟨_, _, _, _, _, -, rfl⟩ | ⟨_, _, _, _, -, -, rfl⟩ :=
      h.event he <;> simp [Event.comments, Ne.symm hi]

end

structure Gated (cfg : Settings) (s : State) : Prop where
  idle : ∀ r, s.routers r = .idle → ∀ e ∈ s.events, e.router ≠ some r
  started_once : ∀ r state state' stored stored', .started r state stored ∈ s.events →
    .started r state' stored' ∈ s.events → state = state'
  run : ∀ r run, (s.routers r).run = some run → (∃ stored, .started r run.state stored ∈ s.events) ∧
    route cfg run.state = .ok run.decision ∧ run.decision.isActionable = true
  allowed : ∀ r, (s.routers r).Allowed cfg.unicode
  posted : ∀ r d comment ok, .posted (.router r) d comment ok ∈ s.events → ∃ run : RouterRun,
    (∃ stored, .started r run.state stored ∈ s.events) ∧ route cfg run.state = .ok run.decision ∧
    run.decision.isActionable = true ∧ run.decision.requiresApproval = false ∧
    comment.body = run.decision.body
  notified : ∀ r d comment ok, .notified r d comment ok ∈ s.events → ∃ row, s.rows d = some row ∧
    comment.body = queuedNotice cfg.unicode d row.action row.risk
  silent : ∀ r, (s.routers r).silent = true → s.comments r = 0
  comments_le : ∀ r, s.comments r ≤ 1

theorem executeDecision_body {u : Unicode} {action : Action} {body : String} {repo pr : PyVal}
    {comment : Comment} (h : executeDecision u action body repo pr = .ok (some comment)) :
    comment.body = body := by
  unfold executeDecision at h
  cases hpr : pr.toInt u with
  | error e => simp [hpr, bind, Except.bind] at h
  | ok n =>
    cases action <;> simp only [hpr, bind, Except.bind, pure, Except.pure, Except.ok.injEq,
      Option.some.injEq, reduceCtorEq] at h
    all_goals rw [← h]

theorem noticeComment_body {u : Unicode} {state : PRState} {d : DecisionId} {row : ReviewDecision}
    {comment : Comment} (h : noticeComment u state d row = some comment) :
    comment.body = queuedNotice u d row.action row.risk := by
  unfold noticeComment at h
  simp only at h
  split at h
  · cases h
  · split at h
    · cases h
      rfl
    · cases h

section
variable {cfg : Settings} {s t : State} {a : Step}

theorem step_event (h : step cfg s a = some t) {e : Event} (he : e ∈ t.events) :
    e ∈ s.events ∨
    (∃ r act eff, a = .router r act ∧ RouterMove cfg s.rows s.nextId r (s.routers r) act eff ∧
      e ∈ eff.events ∧ t = s.applyRouter r eff) ∨
    e.router = none := by
  cases a with
  | router r act =>
    obtain ⟨eff, hmove, rfl⟩ := step_router h
    obtain hnew | hold := List.mem_append.mp he
    · exact .inr (.inl ⟨r, act, eff, rfl, hmove, hnew, rfl⟩)
    · exact .inl hold
  | request q act =>
    obtain ⟨eff, hmove, rfl⟩ := step_request h
    obtain hnew | hold := List.mem_append.mp he
    · exact .inr (.inr (hmove.event_router hnew))
    · exact .inl hold

theorem step_events_mono (h : step cfg s a = some t) {e : Event} (he : e ∈ s.events) :
    e ∈ t.events := by
  cases a with
  | router r act =>
    obtain ⟨eff, -, rfl⟩ := step_router h
    exact List.mem_append_right _ he
  | request q act =>
    obtain ⟨eff, -, rfl⟩ := step_request h
    exact List.mem_append_right _ he

theorem RouterMove.not_idle {rows : DecisionTable} {nextId : DecisionId} {r : RouterId}
    {pc : RouterPc} {act : RouterAct} {eff : Effect RouterPc}
    (h : RouterMove cfg rows nextId r pc act eff) : eff.pc ≠ .idle := by
  intro hpc
  cases h with
  | start state stored =>
    obtain heq | ⟨result, heq⟩ | ⟨decision, -, -, ⟨key, heq⟩ | ⟨-, heq⟩⟩ :=
      startRun_cases cfg state stored <;> cases heq.symm.trans hpc
  | found run key d row | refound run key d row | insert run key row =>
    obtain ⟨result, heq⟩ | ⟨-, ⟨comment, -, -, heq⟩ | ⟨-, heq⟩⟩ | ⟨-, -, heq⟩ :=
      afterEnqueue_cases cfg.unicode run _ _ _ <;> cases heq.symm.trans hpc
  | notify run d copy comment outcome =>
    obtain ⟨result, heq⟩ | ⟨-, heq⟩ := afterNotice_cases run d copy <;> cases heq.symm.trans hpc
  | post run target outcome comment | postNothing run target outcome
  | postError run target outcome =>
    cases target <;> first | cases hpc | (cases outcome <;> cases hpc)
  | _ => cases hpc

theorem step_router_event (h : step cfg s a = some t) {e : Event} {r : RouterId}
    (he : e ∈ t.events) (hr : e.router = some r) (hnew : e ∉ s.events) :
    ∃ act eff, a = .router r act ∧ RouterMove cfg s.rows s.nextId r (s.routers r) act eff ∧
      e ∈ eff.events ∧ t = s.applyRouter r eff := by
  obtain hold | ⟨i, act, eff, rfl, hmove, hmem, rfl⟩ | hnone := step_event h he
  · exact absurd hold hnew
  · have hi : i = r := by
      obtain ⟨_, _, -, rfl, -⟩ | ⟨_, _, _, rfl⟩ | ⟨_, _, _, _, _, -, rfl⟩ |
        ⟨_, _, _, _, -, -, rfl⟩ := hmove.event hmem
      · exact Option.some.inj hr
      · cases hr
      · exact Option.some.inj hr
      · exact Option.some.inj hr
    subst hi
    exact ⟨act, eff, rfl, hmove, hmem, rfl⟩
  · cases hnone.symm.trans hr

theorem Gated.step_idle (hs : Gated cfg s) (h : step cfg s a = some t) (r : RouterId)
    (hpc : t.routers r = .idle) (e : Event) (he : e ∈ t.events) : e.router ≠ some r := by
  intro hr
  by_cases hold : e ∈ s.events
  · obtain hsame | ⟨act, eff, rfl, hmove, rfl⟩ := step_routers h r
    · exact hs.idle r (hsame ▸ hpc) e hold hr
    · rw [applyRouter_self] at hpc
      exact hmove.not_idle hpc
  · obtain ⟨act, eff, rfl, hmove, -, rfl⟩ := step_router_event h he hr hold
    rw [applyRouter_self] at hpc
    exact hmove.not_idle hpc

theorem Gated.step_started_once (hs : Gated cfg s) (h : step cfg s a = some t) (r : RouterId)
    (state state' : PRState) (stored stored' : Bool) (he : .started r state stored ∈ t.events)
    (he' : .started r state' stored' ∈ t.events) : state = state' := by
  have hfresh : ∀ state stored, .started r state stored ∈ t.events →
      .started r state stored ∉ s.events → s.routers r = .idle ∧
        ∀ state', (∃ stored', .started r state' stored' ∈ t.events) → state' = state := by
    intro state stored he hnew
    obtain ⟨act, eff, rfl, hmove, hmem, rfl⟩ := step_router_event h he rfl hnew
    have hidle : s.routers r = .idle := by
      obtain ⟨_, _, hidle, -, -⟩ | ⟨_, _, _, heq⟩ | ⟨_, _, _, _, _, -, heq⟩ |
        ⟨_, _, _, _, -, -, heq⟩ := hmove.event hmem
      · exact hidle
      all_goals cases heq
    refine ⟨hidle, ?_⟩
    rintro state' ⟨stored', he'⟩
    obtain hnew' | hold := List.mem_append.mp he'
    · rw [hidle] at hmove
      cases hmove with
      | start st sto =>
        cases List.mem_singleton.mp hmem
        cases List.mem_singleton.mp hnew'
        rfl
      | _ => cases hmem
    · exact absurd rfl (hs.idle r hidle _ hold)
  by_cases hold : .started r state stored ∈ s.events
  · by_cases hold' : .started r state' stored' ∈ s.events
    · exact hs.started_once r state state' stored stored' hold hold'
    · exact (hfresh state' stored' he' hold').2 state ⟨stored, he⟩
  · exact ((hfresh state stored he hold).2 state' ⟨stored', he'⟩).symm

theorem Gated.step_run (hs : Gated cfg s) (h : step cfg s a = some t) (r : RouterId)
    (run : RouterRun) (hrun : (t.routers r).run = some run) :
    (∃ stored, .started r run.state stored ∈ t.events) ∧
      route cfg run.state = .ok run.decision ∧ run.decision.isActionable = true := by
  have hkeep : (s.routers r).run = some run → (∃ stored, .started r run.state stored ∈ t.events) ∧
      route cfg run.state = .ok run.decision ∧ run.decision.isActionable = true := by
    intro hold
    obtain ⟨⟨stored, hmem⟩, hroute⟩ := hs.run r run hold
    exact ⟨⟨stored, step_events_mono h hmem⟩, hroute⟩
  obtain hsame | ⟨act, eff, rfl, hmove, rfl⟩ := step_routers h r
  · exact hkeep (hsame ▸ hrun)
  · rw [applyRouter_self] at hrun
    obtain hold | ⟨stored, -, hevents, hroute⟩ := hmove.run hrun
    · exact hkeep hold
    · refine ⟨⟨stored, ?_⟩, hroute⟩
      simp [hevents]

theorem Gated.step_allowed (hs : Gated cfg s) (h : step cfg s a = some t) (r : RouterId) :
    (t.routers r).Allowed cfg.unicode := by
  obtain hsame | ⟨act, eff, rfl, hmove, rfl⟩ := step_routers h r
  · rw [hsame]
    exact hs.allowed r
  · rw [applyRouter_self]
    exact hmove.allowed

theorem Gated.step_posted (hs : Gated cfg s) (h : step cfg s a = some t) (r : RouterId)
    (d : Option DecisionId) (comment : Comment) (ok : Bool)
    (he : .posted (.router r) d comment ok ∈ t.events) :
    ∃ run : RouterRun, (∃ stored, .started r run.state stored ∈ t.events) ∧
      route cfg run.state = .ok run.decision ∧ run.decision.isActionable = true ∧
      run.decision.requiresApproval = false ∧ comment.body = run.decision.body := by
  by_cases hold : .posted (.router r) d comment ok ∈ s.events
  · obtain ⟨run, ⟨stored, hmem⟩, hrest⟩ := hs.posted r d comment ok hold
    exact ⟨run, ⟨stored, step_events_mono h hmem⟩, hrest⟩
  · obtain ⟨act, eff, rfl, hmove, hmem, rfl⟩ := step_router_event h he rfl hold
    obtain ⟨_, _, -, heq, -⟩ | ⟨_, _, _, heq⟩ | ⟨_, _, _, _, _, -, heq⟩ |
      ⟨run, target, made, _, hpc, hcomment, heq⟩ := hmove.event hmem
    · cases heq
    · cases heq
    · cases heq
    · cases heq
      obtain ⟨⟨stored, hstart⟩, hroute, hact⟩ := hs.run r run (by rw [hpc]; rfl)
      have hallowed := hs.allowed r
      rw [hpc] at hallowed
      exact ⟨run, ⟨stored, step_events_mono h hstart⟩, hroute, hact, hallowed,
        executeDecision_body hcomment⟩

theorem Gated.step_notified (hs : Gated cfg s) (hwf : WellFormed cfg s) (h : step cfg s a = some t)
    (r : RouterId) (d : DecisionId) (comment : Comment) (ok : Bool)
    (he : .notified r d comment ok ∈ t.events) :
    ∃ row, t.rows d = some row ∧
      comment.body = queuedNotice cfg.unicode d row.action row.risk := by
  have hrow : ∃ row, s.rows d = some row ∧
      comment.body = queuedNotice cfg.unicode d row.action row.risk := by
    by_cases hold : .notified r d comment ok ∈ s.events
    · exact hs.notified r d comment ok hold
    · obtain ⟨act, eff, rfl, hmove, hmem, rfl⟩ := step_router_event h he rfl hold
      obtain ⟨_, _, -, heq, -⟩ | ⟨_, _, _, heq⟩ | ⟨run, i, copy, made, _, hpc, heq⟩ |
        ⟨_, _, _, _, -, -, heq⟩ := hmove.event hmem
      · cases heq
      · cases heq
      · cases heq
        obtain ⟨row, hrow, hcontent⟩ := hwf.routers r (d, copy) (by simp [hpc, RouterPc.copies])
        have hallowed := hs.allowed r
        rw [hpc] at hallowed
        refine ⟨row, hrow, ?_⟩
        rw [noticeComment_body hallowed.2]
        have haction : copy.action = row.action := congrArg (·.action) hcontent
        have hrisk : copy.risk = row.risk := congrArg (·.risk) hcontent
        rw [haction, hrisk]
      · cases heq
  obtain ⟨row, hrow, hbody⟩ := hrow
  obtain ⟨new, hnew, hcontent⟩ := hwf.rows_persist h hrow
  refine ⟨new, hnew, ?_⟩
  have haction : new.action = row.action := congrArg (·.action) hcontent
  have hrisk : new.risk = row.risk := congrArg (·.risk) hcontent
  rw [hbody, haction, hrisk]

theorem step_comments (h : step cfg s a = some t) (r : RouterId) :
    (t.comments r = s.comments r ∧ ((t.routers r).silent = true → (s.routers r).silent = true)) ∨
    (t.comments r = s.comments r + 1 ∧ (s.routers r).silent = true ∧
      (t.routers r).silent = false) := by
  cases a with
  | router i act =>
    obtain ⟨eff, hmove, rfl⟩ := step_router h
    have hcount : (s.applyRouter i eff).comments r =
        eff.events.countP (Event.comments r) + s.comments r := by
      simp [State.comments]
    obtain ⟨hzero, hsilent⟩ | ⟨rfl, hone, hsilent, hafter⟩ | ⟨hne, hzero⟩ := hmove.silent r
    · refine .inl ⟨by rw [hcount, hzero, Nat.zero_add], ?_⟩
      by_cases hr : r = i
      · subst hr
        rwa [applyRouter_self]
      · rw [applyRouter_of_ne _ _ _ hr]
        exact id
    · refine .inr ⟨by rw [hcount, hone, Nat.add_comm], hsilent, ?_⟩
      rwa [applyRouter_self]
    · refine .inl ⟨by rw [hcount, hzero, Nat.zero_add], ?_⟩
      rw [applyRouter_of_ne _ _ _ hne]
      exact id
  | request q act =>
    obtain ⟨eff, hmove, rfl⟩ := step_request h
    refine .inl ⟨?_, id⟩
    have hzero : eff.events.countP (Event.comments r) = 0 := by
      refine List.countP_eq_zero.mpr fun e he => ?_
      have hnone := hmove.event_router he
      cases e with
      | posted actor d comment ok =>
        cases actor with
        | router i => cases hnone
        | request i => simp [Event.comments]
      | notified i d comment ok => cases hnone
      | _ => simp [Event.comments]
    simp [State.comments, hzero]

theorem Gated.step (hs : Gated cfg s) (hwf : WellFormed cfg s) (h : step cfg s a = some t) :
    Gated cfg t where
  idle := hs.step_idle h
  started_once := hs.step_started_once h
  run := hs.step_run h
  allowed := hs.step_allowed h
  posted := hs.step_posted h
  notified := hs.step_notified hwf h
  silent r hr := by
    obtain ⟨hsame, hsilent⟩ | ⟨-, -, hloud⟩ := step_comments h r
    · rw [hsame]
      exact hs.silent r (hsilent hr)
    · cases hloud.symm.trans hr
  comments_le r := by
    obtain ⟨hsame, -⟩ | ⟨hone, hsilent, -⟩ := step_comments h r
    · rw [hsame]
      exact hs.comments_le r
    · exact Nat.le_of_eq (by rw [hone, hs.silent r hsilent])

theorem Gated.initial (cfg : Settings) (ledger : Ledger) : Gated cfg (State.initial ledger) where
  idle _ _ _ he := by cases he
  started_once _ _ _ _ _ he := by cases he
  run _ _ hrun := by cases hrun
  allowed _ := trivial
  posted _ _ _ _ he := by cases he
  notified _ _ _ _ he := by cases he
  silent _ _ := rfl
  comments_le _ := Nat.zero_le _

end

theorem Reachable.gated {cfg : Settings} {ledger : Ledger} {ok : State → Step → Prop} {s : State}
    (h : (reviews cfg ledger).Reachable ok s) : Gated cfg s :=
  Reachable.invariant (fun _ => Reachable.wellFormed) (Gated.initial cfg ledger)
    (fun _ _ _ hwf _ hstep hs => hs.step hwf hstep) h

/-- The policy asks for no approval only where it is safe to post; a router run posts
a body only on such a decision; and a gated run sends at most a notice, whose text is
a function of the row's id, action and risk. -/
theorem human_gate_sound (cfg : Settings) :
    (∀ state decision, route cfg state = .ok decision → decision.isActionable = true →
      decision.requiresApproval = false → AutoSafe cfg state decision) ∧
    ∀ ledger s, (reviews cfg ledger).Reachable anyStep s →
      (∀ r d comment ok, .posted (.router r) d comment ok ∈ s.events →
        ∃ state stored decision, .started r state stored ∈ s.events ∧
          route cfg state = .ok decision ∧ comment.body = decision.body ∧
          decision.requiresApproval = false ∧ AutoSafe cfg state decision) ∧
      (∀ r state stored decision, .started r state stored ∈ s.events →
        route cfg state = .ok decision → decision.requiresApproval = true →
          (∀ d comment ok, .posted (.router r) d comment ok ∉ s.events) ∧ s.comments r ≤ 1) ∧
      ∀ r d comment ok, .notified r d comment ok ∈ s.events → ∃ row, s.rows d = some row ∧
        comment.body = queuedNotice cfg.unicode d row.action row.risk := by
  refine ⟨fun _ _ => route_auto, fun ledger s h => ?_⟩
  have hs := Reachable.gated h
  refine ⟨?_, ?_, hs.notified⟩
  · intro r d comment ok he
    obtain ⟨run, ⟨stored, hstart⟩, hroute, hact, hauto, hbody⟩ := hs.posted r d comment ok he
    exact ⟨run.state, stored, run.decision, hstart, hroute, hbody, hauto,
      route_auto hroute hact hauto⟩
  · intro r state stored decision hstart hroute hgated
    refine ⟨?_, hs.comments_le r⟩
    intro d comment ok he
    obtain ⟨run, ⟨stored', hstart'⟩, hroute', -, hauto, -⟩ := hs.posted r d comment ok he
    rw [hs.started_once r _ _ _ _ hstart hstart', hroute'] at hroute
    cases hroute
    rw [hauto] at hgated
    cases hgated

/-- An elevated-risk review is queued. -/
def queueRun : List Step := routerRun 0 [.start (.sample "high") true, .select, .insert]

def queueState : State := (reviews .small .empty).after queueRun (by decide)

def queueDecision : RoutingDecision :=
  (route .small (.sample "high")).toOption.get (by decide)

theorem human_gate_sound_queued :
    (∀ d comment ok, .posted (.router 0) d comment ok ∉ queueState.events) ∧
      queueState.comments 0 ≤ 1 :=
  ((human_gate_sound .small).2 .empty queueState (Reachable.after _ (System.Admits.any _ _))).2.1
    0 (.sample "high") true queueDecision (List.mem_of_getElem? (i := 1) rfl) rfl rfl

end AutoPR.Routing
