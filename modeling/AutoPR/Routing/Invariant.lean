import AutoPR.Routing.Steps

/-! Invariants of every run: rows stay and keep their content, one row a key, and
every session copy has the content of its row. -/
namespace AutoPR.Routing
open Python UnitOfWork Transition

/-- The copy of a row that an actor holds, with the content of the row. -/
def Loaded (rows : DecisionTable) (c : DecisionId × ReviewDecision) : Prop :=
  ∃ row, rows c.1 = some row ∧ c.2.content = row.content

def RouterPc.copies : RouterPc → List (DecisionId × ReviewDecision)
  | .notifying _ d copy _ | .marking _ d copy _ => [(d, copy)]
  | .posting _ target => target.toList
  | _ => []

def RequestPc.copies : RequestPc → List (DecisionId × ReviewDecision)
  | .claiming _ d copy | .rejecting _ d copy => copy.toList.map fun copy => (d, copy)
  | .retrying _ d copy | .handing d copy | .posting _ d copy | .marking _ d copy _ => [(d, copy)]
  | .swept copies => copies
  | _ => []

section
variable {cfg : Settings} {u : Unicode} {run : RouterRun} {d : DecisionId} {copy : ReviewDecision}
  {created : Bool}

theorem startRun_cases (cfg : Settings) (state : PRState) (stored : Bool) :
    startRun cfg state stored = .raised ∨ (∃ result, startRun cfg state stored = .returned result) ∨
    ∃ decision, route cfg state = .ok decision ∧ decision.isActionable = true ∧
      ((∃ key, startRun cfg state stored = .selecting ⟨state, decision⟩ key) ∨
      (decision.requiresApproval = false ∧
        startRun cfg state stored = .posting ⟨state, decision⟩ none)) := by
  unfold startRun
  cases hroute : route cfg state with
  | error e => exact .inl rfl
  | ok decision =>
    right
    cases hact : decision.isActionable with
    | false => exact .inl ⟨decision.base, by simp [hact]⟩
    | true =>
      simp only [hact, Bool.not_true, Bool.false_eq_true, if_false]
      cases stored with
      | true =>
        rw [if_pos rfl]
        cases hkey : decision.dedupKey cfg.unicode state with
        | error e => exact .inl ⟨_, rfl⟩
        | ok key => exact .inr ⟨decision, rfl, hact, .inl ⟨key, rfl⟩⟩
      | false =>
        simp only [Bool.false_eq_true, if_false]
        split
        · exact .inl ⟨_, rfl⟩
        · rename_i happ
          exact .inr ⟨decision, rfl, hact, .inr ⟨by simpa using happ, rfl⟩⟩

theorem afterNotice_cases (run : RouterRun) (d : DecisionId) (copy : ReviewDecision) :
    (∃ result, afterNotice run d copy = .returned result) ∨
    (copy.status = .failed ∧ afterNotice run d copy = .requeueing run d) := by
  unfold afterNotice
  split
  · rename_i hst
    exact .inr ⟨hst, rfl⟩
  · exact .inl ⟨_, rfl⟩

theorem afterEnqueue_cases (u : Unicode) (run : RouterRun) (d : DecisionId) (copy : ReviewDecision)
    (created : Bool) :
    (∃ result, afterEnqueue u run d copy created = .returned result) ∨
    (run.decision.requiresApproval = true ∧
      ((∃ comment, created = true ∧ noticeComment u run.state d copy = some comment ∧
        afterEnqueue u run d copy created = .notifying run d copy comment) ∨
      (copy.status = .failed ∧ afterEnqueue u run d copy created = .requeueing run d))) ∨
    (run.decision.requiresApproval = false ∧ (created = true ∨ copy.status = .failed) ∧
      afterEnqueue u run d copy created = .posting run (some (d, copy))) := by
  unfold afterEnqueue
  by_cases hexec : copy.status = .executed
  · exact .inl ⟨_, by simp [hexec]; rfl⟩
  rw [if_neg hexec]
  cases happ : run.decision.requiresApproval with
  | true =>
    rw [if_pos rfl]
    cases hnotice : if created then noticeComment u run.state d copy else none with
    | some comment =>
      cases created with
      | false => cases hnotice
      | true => exact .inr (.inl ⟨rfl, .inl ⟨comment, rfl, hnotice, rfl⟩⟩)
    | none =>
      obtain hret | ⟨hst, hreq⟩ := afterNotice_cases run d copy
      · exact .inl hret
      · exact .inr (.inl ⟨rfl, .inr ⟨hst, hreq⟩⟩)
  | false =>
    simp only [Bool.false_eq_true, if_false]
    split
    · exact .inl ⟨_, rfl⟩
    · split
      · exact .inl ⟨_, rfl⟩
      · rename_i hopen
        refine .inr (.inr ⟨trivial, ?_, rfl⟩)
        cases created with
        | true => exact .inl rfl
        | false => exact .inr (by simpa using hopen)

theorem afterEnqueue_copies {c : DecisionId × ReviewDecision}
    (hc : c ∈ (afterEnqueue u run d copy created).copies) : c = (d, copy) := by
  obtain ⟨result, heq⟩ | ⟨-, ⟨comment, -, -, heq⟩ | ⟨-, heq⟩⟩ | ⟨-, -, heq⟩ :=
    afterEnqueue_cases u run d copy created <;> rw [heq] at hc
  · cases hc
  · exact List.mem_singleton.mp hc
  · cases hc
  · exact List.mem_singleton.mp hc

theorem afterPost_copies {target : Option (DecisionId × ReviewDecision)} {outcome : PostOutcome}
    {c : DecisionId × ReviewDecision} (hc : c ∈ (afterPost run target outcome).copies) :
    target = some c := by
  cases target with
  | none => cases outcome <;> cases hc
  | some found =>
    cases outcome with
    | answered result => exact congrArg some (List.mem_singleton.mp hc).symm
    | raised => cases hc

end

section
variable {cfg : Settings} {q : RequestId} {channel : Channel} {d : DecisionId}
  {copy : ReviewDecision} {won : Bool} {c : DecisionId × ReviewDecision}

theorem startRequest_cases (cfg : Settings) (verb : Verb) (channel : Channel) (d : DecisionId) :
    (∃ outcome, startRequest cfg verb channel d = .answered outcome) ∨
    startRequest cfg verb channel d = .claiming .ops d none ∨
    startRequest cfg verb channel d = .rejecting .ops d none ∨
    ∃ repo n installation,
      startRequest cfg verb channel d = .looking verb repo n installation d := by
  cases channel with
  | comment repo n installation => exact .inr (.inr (.inr ⟨repo, n, installation, rfl⟩))
  | ops =>
    unfold startRequest
    cases cfg.publicMode with
    | true => exact .inl ⟨_, rfl⟩
    | false =>
      cases verb with
      | approve => exact .inr (.inl rfl)
      | reject => exact .inr (.inr (.inl rfl))

theorem finish_cases (channel : Channel) (d : DecisionId) (verb : Verb) (outcome : Outcome) :
    channel.finish d verb outcome = .answered outcome ∨
    ∃ comment, channel.finish d verb outcome = .replying comment outcome := by
  cases channel with
  | ops => exact .inl rfl
  | comment repo n installation =>
    unfold Channel.finish
    cases hreply : replyText d verb outcome with
    | none => exact .inl rfl
    | some text => exact .inr ⟨_, rfl⟩

theorem afterLost_cases (channel : Channel) (d : DecisionId) (copy : ReviewDecision) :
    (∃ outcome, afterLost channel d copy = channel.finish d .approve outcome) ∨
    (copy.status = .failed ∧ afterLost channel d copy = .retrying channel d copy) := by
  unfold afterLost
  cases hst : copy.status with
  | failed => exact .inr ⟨rfl, rfl⟩
  | _ => exact .inl ⟨_, rfl⟩

theorem afterClaimed_cases (cfg : Settings) (channel : Channel) (d : DecisionId)
    (copy : ReviewDecision) :
    (cfg.handoffMode = true ∧ afterClaimed cfg channel d copy = .handing d copy) ∨
    afterClaimed cfg channel d copy = .posting channel d copy := by
  unfold afterClaimed
  split
  · rename_i h
    rw [Bool.and_eq_true] at h
    exact .inl ⟨h.2, rfl⟩
  · exact .inr rfl

theorem finish_copies (verb : Verb) (outcome : Outcome) :
    (channel.finish d verb outcome).copies = [] := by
  obtain heq | ⟨comment, heq⟩ := finish_cases channel d verb outcome <;> rw [heq] <;> rfl

theorem afterClaimed_copies : (afterClaimed cfg channel d copy).copies = [(d, copy)] := by
  obtain ⟨-, heq⟩ | heq := afterClaimed_cases cfg channel d copy <;> rw [heq] <;> rfl

theorem afterClaim_copies (hc : c ∈ (afterClaim cfg q channel d copy won).pc.copies) :
    c = (d, copy) := by
  cases won with
  | true =>
    simp only [afterClaim, if_true, afterClaimed_copies] at hc
    exact List.mem_singleton.mp hc
  | false =>
    simp only [afterClaim, Bool.false_eq_true, if_false] at hc
    obtain ⟨outcome, heq⟩ | ⟨-, heq⟩ := afterLost_cases channel d copy
    · rw [heq, finish_copies] at hc
      cases hc
    · rw [heq] at hc
      exact List.mem_singleton.mp hc

theorem claimNext_copies {held : Option ReviewDecision}
    (hc : c ∈ (claimNext cfg q channel d held won).pc.copies) :
    ∃ copy, held = some copy ∧ c = (d, copy.evaluate .pending .approved) := by
  cases held with
  | none => cases hc
  | some copy => exact ⟨copy, rfl, afterClaim_copies hc⟩

theorem rejectNext_copies (held : Option ReviewDecision) :
    (rejectNext channel d held won).copies = [] := by
  cases held with
  | none => rfl
  | some copy => exact finish_copies ..

theorem mem_approvedRows {rows : DecisionTable} {nextId : DecisionId}
    (hc : c ∈ approvedRows rows nextId) : rows c.1 = some c.2 ∧ c.2.status = .approved := by
  obtain ⟨i, -, hi⟩ := List.mem_filterMap.mp hc
  obtain ⟨row, hrow, hst⟩ := Option.bind_eq_some_iff.mp hi
  split at hst
  · rename_i happ
    cases hst
    exact ⟨hrow, happ⟩
  · cases hst

end

section
variable {cfg : Settings} {rows : DecisionTable} {nextId d : DecisionId} {new : ReviewDecision}

theorem ReviewDecision.mark_content {row copy : ReviewDecision} {result : ActionResult} :
    (row.mark copy result).content = row.content := by
  unfold ReviewDecision.mark
  split <;> rfl

/-- A router run writes the row it inserts, or keeps the content of an open row or of one
that it holds. -/
theorem RouterMove.write {r : RouterId} {pc : RouterPc} {act : RouterAct} {eff : Effect RouterPc}
    (h : RouterMove cfg rows nextId r pc act eff) (hw : eff.write d = some new) :
    (eff.grow = true ∧ d = nextId ∧ act = .insert ∧ ∃ run key, pc = .inserting run key new ∧
      findDecision rows nextId key = none) ∨
    (eff.grow = false ∧ ∃ row, rows d = some row ∧ new.content = row.content ∧
      (row.status.final = false ∨ ∃ copy, (d, copy) ∈ pc.copies)) := by
  cases h with
  | insert run key row hfind =>
    obtain ⟨rfl, rfl⟩ := only_eq_some.mp hw
    exact .inl ⟨rfl, rfl, rfl, run, key, rfl, hfind⟩
  | requeueWon run i row updated hrow hnew =>
    obtain ⟨rfl, rfl⟩ := only_eq_some.mp hw
    refine .inr ⟨rfl, row, hrow, ReviewDecision.requeue_content hnew, .inl ?_⟩
    rw [(ReviewDecision.requeue_eq_some.mp hnew).1]
    rfl
  | mark run i copy result row hrow =>
    obtain ⟨rfl, rfl⟩ := only_eq_some.mp hw
    exact .inr ⟨rfl, row, hrow, ReviewDecision.mark_content, .inr ⟨copy, List.mem_singleton_self _⟩⟩
  | _ => cases hw

theorem RequestMove.grow {q : RequestId} {pc : RequestPc} {act : RequestAct}
    {eff : Effect RequestPc} (h : RequestMove cfg rows nextId q pc act eff) : eff.grow = false := by
  cases h with
  | claimWon channel i copy | claimLost channel i copy => cases copy <;> simp [claimNext, afterClaim]
  | load i won row => cases won <;> rfl
  | _ => rfl

theorem RequestMove.write {q : RequestId} {pc : RequestPc} {act : RequestAct}
    {eff : Effect RequestPc} (h : RequestMove cfg rows nextId q pc act eff)
    (hw : eff.write d = some new) : ∃ row, rows d = some row ∧ new.content = row.content ∧
      (row.status.final = false ∨ ∃ copy, (d, copy) ∈ pc.copies) := by
  cases h with
  | claimWon channel i copy row updated hrow hnew | retryWon channel i copy row updated hrow hnew
  | rejectWon channel i copy row updated hrow hnew =>
    obtain ⟨rfl, rfl⟩ := only_eq_some.mp hw
    refine ⟨row, hrow, ReviewDecision.transition_content hnew, .inl ?_⟩
    rw [(ReviewDecision.transition_eq_some.mp hnew).1]
    rfl
  | requeueWon i row updated hrow hnew =>
    obtain ⟨rfl, rfl⟩ := only_eq_some.mp hw
    refine ⟨row, hrow, ReviewDecision.requeue_content hnew, .inl ?_⟩
    rw [(ReviewDecision.requeue_eq_some.mp hnew).1]
    rfl
  | hand i copy row hrow =>
    obtain ⟨rfl, rfl⟩ := only_eq_some.mp hw
    exact ⟨row, hrow, rfl, .inr ⟨copy, List.mem_singleton_self _⟩⟩
  | mark channel i copy result row hrow =>
    obtain ⟨rfl, rfl⟩ := only_eq_some.mp hw
    exact ⟨row, hrow, ReviewDecision.mark_content, .inr ⟨copy, List.mem_singleton_self _⟩⟩
  | commit copies =>
    obtain ⟨copy, hlookup, hnew⟩ := Option.bind_eq_some_iff.mp hw
    obtain ⟨row, hrow, rfl⟩ := Option.map_eq_some_iff.mp hnew
    obtain ⟨before, after, rfl, -⟩ := List.lookup_eq_some_iff.mp hlookup
    exact ⟨row, hrow, rfl, .inr ⟨copy, List.mem_append_right before List.mem_cons_self⟩⟩
  | claimLost channel i copy => cases copy <;> simp [claimNext, afterClaim] at hw
  | load i won row => cases won <;> cases hw
  | _ => cases hw

theorem RouterMove.takes {r : RouterId} {pc : RouterPc} {act : RouterAct} {eff : Effect RouterPc}
    (h : RouterMove cfg rows nextId r pc act eff) {c : DecisionId × ReviewDecision}
    (hc : c ∈ eff.pc.copies) :
    c ∈ pc.copies ∨ (rows c.1 = some c.2 ∧ c.2.status.final = false) ∨
    ∃ run key, pc = .inserting run key c.2 ∧ eff.write c.1 = some c.2 := by
  cases h with
  | start state stored =>
    obtain heq | ⟨result, heq⟩ | ⟨decision, -, -, ⟨key, heq⟩ | ⟨-, heq⟩⟩ :=
      startRun_cases cfg state stored <;> rw [heq] at hc <;> cases hc
  | found run key i row hfind | refound run key i row hfind =>
    obtain ⟨result, heq⟩ | ⟨-, ⟨comment, hcreated, -⟩ | ⟨-, heq⟩⟩ | ⟨-, hcreated | hst, heq⟩ :=
      afterEnqueue_cases cfg.unicode run i row false
    · rw [heq] at hc
      cases hc
    · cases hcreated
    · rw [heq] at hc
      cases hc
    · cases hcreated
    · rw [heq] at hc
      cases List.mem_singleton.mp hc
      exact .inr (.inl ⟨(findDecision_eq_some hfind).1, by rw [hst]; rfl⟩)
  | insert run key row hfind =>
    cases afterEnqueue_copies (u := cfg.unicode) hc
    exact .inr (.inr ⟨run, key, rfl, only_self nextId row⟩)
  | notify run i copy comment outcome =>
    obtain ⟨result, heq⟩ | ⟨-, heq⟩ := afterNotice_cases run i copy <;> rw [heq] at hc <;> cases hc
  | post run target outcome comment | postNothing run target outcome
  | postError run target outcome =>
    left
    rw [afterPost_copies hc]
    exact List.mem_singleton_self c
  | _ => cases hc

/-- A copy held after a router step was held before, or is the row just read or
inserted. -/
theorem RouterMove.copies {r : RouterId} {pc : RouterPc} {act : RouterAct} {eff : Effect RouterPc}
    (h : RouterMove cfg rows nextId r pc act eff) {c : DecisionId × ReviewDecision}
    (hc : c ∈ eff.pc.copies) :
    c ∈ pc.copies ∨ rows c.1 = some c.2 ∨ eff.write c.1 = some c.2 := by
  obtain hold | ⟨hread, -⟩ | ⟨-, -, -, hwritten⟩ := h.takes hc
  · exact .inl hold
  · exact .inr (.inl hread)
  · exact .inr (.inr hwritten)

/-- A request comes to hold an open row, one that it has claimed, or one of the tenant
that it looks it up for. -/
theorem RequestMove.takes {q : RequestId} {pc : RequestPc} {act : RequestAct}
    {eff : Effect RequestPc} (h : RequestMove cfg rows nextId q pc act eff)
    {c : DecisionId × ReviewDecision} (hc : c ∈ eff.pc.copies) :
    (∃ c' ∈ pc.copies, c'.1 = c.1 ∧ c.2.content = c'.2.content) ∨ rows c.1 = some c.2 ∧
      (c.2.status.final = false ∨ pc = .loading c.1 true ∨
        ∃ verb repo n i d, pc = .looking verb repo n i d ∧ c.2.installationId = some i) := by
  cases h with
  | begin verb channel i =>
    obtain ⟨outcome, heq⟩ | heq | heq | ⟨repo, n, installation, heq⟩ :=
      startRequest_cases cfg verb channel i <;> rw [heq] at hc <;> cases hc
  | lookApprove repo n installation i row hrow haddr | lookReject repo n installation i row hrow haddr =>
    simp only [addressable, Bool.and_eq_true, decide_eq_true_eq] at haddr
    cases List.mem_singleton.mp hc
    exact .inr ⟨hrow, .inr (.inr ⟨_, repo, n, installation, i, rfl, haddr.2⟩)⟩
  | claimWon channel i held row updated hrow hnew =>
    obtain ⟨copy, rfl, rfl⟩ := claimNext_copies (c := c) hc
    exact .inl ⟨(i, copy), List.mem_singleton_self _, rfl, ReviewDecision.evaluate_content⟩
  | claimLost channel i held =>
    obtain ⟨copy, rfl, rfl⟩ := claimNext_copies hc
    exact .inl ⟨(i, copy), List.mem_singleton_self _, rfl, ReviewDecision.evaluate_content⟩
  | load i won row hrow =>
    cases afterClaim_copies hc
    refine .inr ⟨hrow, ?_⟩
    cases won with
    | true => exact .inr (.inl rfl)
    | false =>
      replace hc : (i, row) ∈ (afterLost .ops i row).copies := hc
      obtain ⟨outcome, heq⟩ | ⟨hst, -⟩ := afterLost_cases .ops i row
      · rw [heq, finish_copies] at hc
        cases hc
      · exact .inl (by rw [hst]; rfl)
  | retryWon channel i copy row updated hrow hnew =>
    rw [afterClaimed_copies] at hc
    cases List.mem_singleton.mp hc
    exact .inl ⟨(i, copy), List.mem_singleton_self _, rfl, ReviewDecision.evaluate_content⟩
  | post channel i copy outcome comment =>
    cases outcome with
    | raised => cases hc
    | answered result => exact .inl ⟨c, hc, rfl, rfl⟩
  | postNothing channel i copy outcome => exact .inl ⟨c, hc, rfl, rfl⟩
  | select copies hsome hcopies =>
    subst hcopies
    obtain ⟨hrow, hst⟩ := mem_approvedRows hc
    exact .inr ⟨hrow, .inl (by rw [hst]; rfl)⟩
  | lookNone | retryLost =>
    rw [finish_copies] at hc
    cases hc
  | mark channel i copy result row hrow =>
    simp only [afterMark, finish_copies] at hc
    cases hc
  | rejectWon channel i held | rejectLost channel i held =>
    rw [rejectNext_copies] at hc
    cases hc
  | loadRejected i won row hrow =>
    simp only [afterReject, finish_copies] at hc
    cases hc
  | reply comment outcome result => cases result <;> cases hc
  | _ => cases hc

/-- A copy held after a request's step has the content of one held before, or of the
row just read. -/
theorem RequestMove.copies {q : RequestId} {pc : RequestPc} {act : RequestAct}
    {eff : Effect RequestPc} (h : RequestMove cfg rows nextId q pc act eff)
    {c : DecisionId × ReviewDecision} (hc : c ∈ eff.pc.copies) :
    (∃ c' ∈ pc.copies, c'.1 = c.1 ∧ c.2.content = c'.2.content) ∨ Loaded rows c := by
  obtain hold | ⟨hread, -⟩ := h.takes hc
  · exact .inl hold
  · exact .inr ⟨c.2, hread, rfl⟩

end

theorem step_rows {cfg : Settings} {s t : State} {a : Step} (h : step cfg s a = some t)
    (d : DecisionId) :
    t.rows d = s.rows d ∨
    (d = s.nextId ∧ t.nextId = s.nextId + 1 ∧ ∃ r run key new, a = .router r .insert ∧
      s.routers r = .inserting run key new ∧ findDecision s.rows s.nextId key = none ∧
      t.rows d = some new) ∨
    ∃ row new, s.rows d = some row ∧ t.rows d = some new ∧ new.content = row.content := by
  cases a with
  | router r act =>
    obtain ⟨eff, hmove, rfl⟩ := step_router h
    cases hw : eff.write d with
    | none => exact .inl (by simp [hw])
    | some new =>
      obtain ⟨hgrow, rfl, rfl, run, key, hpc, hfind⟩ | ⟨-, row, hrow, hcontent, -⟩ := hmove.write hw
      · refine .inr (.inl ⟨rfl, ?_, r, run, key, new, rfl, hpc, hfind, by simp [hw]⟩)
        simp [State.applyRouter, State.apply, hgrow]
      · exact .inr (.inr ⟨row, new, hrow, by simp [hw], hcontent⟩)
  | request q act =>
    obtain ⟨eff, hmove, rfl⟩ := step_request h
    cases hw : eff.write d with
    | none => exact .inl (by simp [hw])
    | some new =>
      obtain ⟨row, hrow, hcontent, -⟩ := hmove.write hw
      exact .inr (.inr ⟨row, new, hrow, by simp [hw], hcontent⟩)

theorem step_nextId {cfg : Settings} {s t : State} {a : Step} (h : step cfg s a = some t) :
    t.nextId = s.nextId ∨ t.nextId = s.nextId + 1 := by
  cases a with
  | router r act =>
    obtain ⟨eff, -, rfl⟩ := step_router h
    cases hg : eff.grow <;> simp [State.applyRouter, State.apply, hg]
  | request q act =>
    obtain ⟨eff, -, rfl⟩ := step_request h
    cases hg : eff.grow <;> simp [State.applyRequest, State.apply, hg]

theorem newDecision_key {u : Unicode} {state : PRState} {decision : RoutingDecision} {key : String}
    {row : ReviewDecision} (h : newDecision u state decision key = .ok row) :
    row.dedupKey = key ∧ row.status = .pending ∧ row.action = decision.action.value ∧
      row.body = decision.body := by
  unfold newDecision at h
  cases hrepo : (state.repo.getD (.str "?")).asStr with
  | error e => simp [hrepo, bind, Except.bind] at h
  | ok repo =>
    cases hpr : (state.prNumber.getD (.int 0)).toInt u with
    | error e => simp [hrepo, hpr, bind, Except.bind] at h
    | ok n =>
      cases hsha : (state.commitSha.getD (.str "?")).asStr with
      | error e => simp [hrepo, hpr, hsha, bind, Except.bind] at h
      | ok sha =>
        simp only [hrepo, hpr, hsha, bind, Except.bind, pure, Except.pure, Except.ok.injEq] at h
        subst h
        exact ⟨rfl, rfl, rfl, rfl⟩

structure WellFormed (cfg : Settings) (s : State) : Prop where
  rows_lt : ∀ d row, s.rows d = some row → d < s.nextId
  key_unique : ∀ d d' row row', s.rows d = some row → s.rows d' = some row' →
    row.dedupKey = row'.dedupKey → d = d'
  inserting : ∀ r run key row, s.routers r = .inserting run key row →
    newDecision cfg.unicode run.state run.decision key = .ok row
  routers : ∀ r, ∀ c ∈ (s.routers r).copies, Loaded s.rows c
  requests : ∀ q, ∀ c ∈ (s.requests q).copies, Loaded s.rows c

section
variable {cfg : Settings} {s t : State} {a : Step}

theorem WellFormed.rows_nextId (hwf : WellFormed cfg s) : s.rows s.nextId = none := by
  cases hrow : s.rows s.nextId with
  | none => rfl
  | some row => exact absurd (hwf.rows_lt _ row hrow) (Nat.lt_irrefl _)

theorem WellFormed.rows_persist (hwf : WellFormed cfg s) (h : step cfg s a = some t) {d : DecisionId}
    {row : ReviewDecision} (hrow : s.rows d = some row) :
    ∃ new, t.rows d = some new ∧ new.content = row.content := by
  obtain hsame | ⟨rfl, -⟩ | ⟨old, new, hold, hnew, hcontent⟩ := step_rows h d
  · exact ⟨row, hsame ▸ hrow, rfl⟩
  · cases hwf.rows_nextId.symm.trans hrow
  · cases hold.symm.trans hrow
    exact ⟨new, hnew, hcontent⟩

theorem WellFormed.loaded_persist (hwf : WellFormed cfg s) (h : step cfg s a = some t)
    {c : DecisionId × ReviewDecision} (hc : Loaded s.rows c) : Loaded t.rows c := by
  obtain ⟨row, hrow, hcontent⟩ := hc
  obtain ⟨new, hnew, hsame⟩ := hwf.rows_persist h hrow
  exact ⟨new, hnew, hcontent.trans hsame.symm⟩

theorem WellFormed.initial (cfg : Settings) (ledger : Ledger) :
    WellFormed cfg (State.initial ledger) where
  rows_lt := ledger.rows_lt
  key_unique := ledger.key_unique
  inserting _ _ _ _ hpc := by cases hpc
  routers _ _ hc := by cases hc
  requests _ _ hc := by cases hc

theorem WellFormed.step_rows_lt (hwf : WellFormed cfg s) (h : step cfg s a = some t) (d : DecisionId)
    (row : ReviewDecision) (hrow : t.rows d = some row) : d < t.nextId := by
  have hle : s.nextId ≤ t.nextId := by
    obtain hsame | hgrown := step_nextId h
    · exact Nat.le_of_eq hsame.symm
    · rw [hgrown]
      exact Nat.le_succ _
  obtain hsame | ⟨rfl, hnext, -⟩ | ⟨old, new, hold, -⟩ := step_rows h d
  · exact Nat.lt_of_lt_of_le (hwf.rows_lt d row (hsame ▸ hrow)) hle
  · rw [hnext]
    exact Nat.lt_succ_self _
  · exact Nat.lt_of_lt_of_le (hwf.rows_lt d old hold) hle

theorem WellFormed.step_key (hwf : WellFormed cfg s) (h : step cfg s a = some t) {d : DecisionId}
    {new : ReviewDecision} (hnew : t.rows d = some new) :
    (∃ row, s.rows d = some row ∧ new.dedupKey = row.dedupKey) ∨
    (d = s.nextId ∧ ∀ i row, s.rows i = some row → row.dedupKey ≠ new.dedupKey) := by
  obtain hsame | ⟨rfl, -, r, run, key, row, -, hpc, hfind, hrow⟩ | ⟨row, row', hrow, hrow', hcontent⟩ :=
    step_rows h d
  · exact .inl ⟨new, hsame ▸ hnew, rfl⟩
  · cases hrow.symm.trans hnew
    refine .inr ⟨rfl, fun i row hi => ?_⟩
    rw [(newDecision_key (hwf.inserting r run key new hpc)).1]
    exact findDecision_eq_none hfind (hwf.rows_lt i row hi) hi
  · cases hrow'.symm.trans hnew
    exact .inl ⟨row, hrow, congrArg (·.dedupKey) hcontent⟩

theorem WellFormed.step_key_unique (hwf : WellFormed cfg s) (h : step cfg s a = some t)
    (d d' : DecisionId) (new new' : ReviewDecision) (hnew : t.rows d = some new)
    (hnew' : t.rows d' = some new') (hkey : new.dedupKey = new'.dedupKey) : d = d' := by
  obtain ⟨row, hrow, heq⟩ | ⟨rfl, hfresh⟩ := hwf.step_key h hnew
  · obtain ⟨row', hrow', heq'⟩ | ⟨rfl, hfresh'⟩ := hwf.step_key h hnew'
    · exact hwf.key_unique d d' row row' hrow hrow' (by rw [← heq, ← heq', hkey])
    · exact absurd (heq.symm.trans hkey) (hfresh' d row hrow)
  · obtain ⟨row', hrow', heq'⟩ | ⟨rfl, -⟩ := hwf.step_key h hnew'
    · exact absurd (heq'.symm.trans hkey.symm) (hfresh d' row' hrow')
    · rfl

theorem step_routers (h : step cfg s a = some t) (r : RouterId) :
    t.routers r = s.routers r ∨
    ∃ act eff, a = .router r act ∧ RouterMove cfg s.rows s.nextId r (s.routers r) act eff ∧
      t = s.applyRouter r eff := by
  cases a with
  | router r' act =>
    obtain ⟨eff, hmove, rfl⟩ := step_router h
    by_cases hr : r = r'
    · subst hr
      exact .inr ⟨act, eff, rfl, hmove, rfl⟩
    · exact .inl (applyRouter_of_ne _ _ _ hr)
  | request q act =>
    obtain ⟨eff, -, rfl⟩ := step_request h
    exact .inl rfl

theorem step_requests (h : step cfg s a = some t) (q : RequestId) :
    t.requests q = s.requests q ∨
    ∃ act eff, a = .request q act ∧ RequestMove cfg s.rows s.nextId q (s.requests q) act eff ∧
      t = s.applyRequest q eff := by
  cases a with
  | router r act =>
    obtain ⟨eff, -, rfl⟩ := step_router h
    exact .inl rfl
  | request q' act =>
    obtain ⟨eff, hmove, rfl⟩ := step_request h
    by_cases hq : q = q'
    · subst hq
      exact .inr ⟨act, eff, rfl, hmove, rfl⟩
    · exact .inl (applyRequest_of_ne _ _ _ hq)

theorem WellFormed.step_inserting (hwf : WellFormed cfg s) (h : step cfg s a = some t)
    (r : RouterId) (run : RouterRun) (key : String) (row : ReviewDecision)
    (hpc : t.routers r = .inserting run key row) :
    newDecision cfg.unicode run.state run.decision key = .ok row := by
  obtain hsame | ⟨act, eff, rfl, hmove, rfl⟩ := step_routers h r
  · exact hwf.inserting r run key row (hsame ▸ hpc)
  · rw [applyRouter_self] at hpc
    generalize s.routers r = pc at hmove
    cases hmove with
    | build run' key' row' hfind hnew =>
      cases hpc
      exact hnew
    | start state stored =>
      obtain heq | ⟨result, heq⟩ | ⟨decision, -, -, ⟨key', heq⟩ | ⟨-, heq⟩⟩ :=
        startRun_cases cfg state stored <;> cases heq.symm.trans hpc
    | found run' key' d row' | refound run' key' d row' | insert run' key' row' =>
      obtain ⟨result, heq⟩ | ⟨-, ⟨comment, -, -, heq⟩ | ⟨-, heq⟩⟩ | ⟨-, -, heq⟩ :=
        afterEnqueue_cases cfg.unicode run' _ _ _ <;> cases heq.symm.trans hpc
    | notify run' d copy comment outcome =>
      obtain ⟨result, heq⟩ | ⟨-, heq⟩ := afterNotice_cases run' d copy <;> cases heq.symm.trans hpc
    | post run' target outcome comment | postNothing run' target outcome
    | postError run' target outcome =>
      cases target <;> first | cases hpc | (cases outcome <;> cases hpc)
    | _ => cases hpc

theorem WellFormed.step (hwf : WellFormed cfg s) (h : step cfg s a = some t) : WellFormed cfg t where
  rows_lt := hwf.step_rows_lt h
  key_unique := hwf.step_key_unique h
  inserting := hwf.step_inserting h
  routers r c hc := by
    obtain hsame | ⟨act, eff, rfl, hmove, rfl⟩ := step_routers h r
    · exact hwf.loaded_persist h (hwf.routers r c (hsame ▸ hc))
    · rw [applyRouter_self] at hc
      obtain hold | hread | hwritten := hmove.copies hc
      · exact hwf.loaded_persist h (hwf.routers r c hold)
      · exact hwf.loaded_persist h ⟨c.2, hread, rfl⟩
      · exact ⟨c.2, by simp [hwritten], rfl⟩
  requests q c hc := by
    apply hwf.loaded_persist h
    obtain hsame | ⟨act, eff, rfl, hmove, rfl⟩ := step_requests h q
    · exact hwf.requests q c (hsame ▸ hc)
    · rw [applyRequest_self] at hc
      obtain ⟨c', hc', hid, hcontent⟩ | hloaded := hmove.copies hc
      · obtain ⟨row, hrow, heq⟩ := hwf.requests q c' hc'
        exact ⟨row, hid ▸ hrow, hcontent.trans heq⟩
      · exact hloaded

end

theorem Reachable.wellFormed {cfg : Settings} {ledger : Ledger} {ok : State → Step → Prop}
    {s : State} (h : (reviews cfg ledger).Reachable ok s) : WellFormed cfg s :=
  Reachable.invariant (J := fun _ => True) (fun _ _ => trivial) (WellFormed.initial cfg ledger)
    (fun _ _ _ _ _ hstep hwf => hwf.step hstep) h

end AutoPR.Routing
