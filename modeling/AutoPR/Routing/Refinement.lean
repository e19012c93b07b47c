import AutoPR.Routing.Holders

/-! Every step of the store is, for each row that the run itself has created, a step
of that row's life or none. -/
namespace AutoPR.Routing
open Python UnitOfWork Transition

inductive State.Enacts (s : State) (d : DecisionId) : Step → Life.Act → Prop
  | create (r run key row) (hpc : s.routers r = .inserting run key row)
      (hfind : findDecision s.rows s.nextId key = none) (hd : s.nextId = d) :
      Enacts s d (.router r .insert) (.create r (!run.decision.requiresApproval))
  | pickUp (r run key row)
      (hpc : s.routers r = .selecting run key ∨ s.routers r = .reselecting run key)
      (hfind : findDecision s.rows s.nextId key = some (d, row))
      (hauto : run.decision.requiresApproval = false) (hst : row.status = .failed) :
      Enacts s d (.router r .select) (.pickUp r)
  | reopen (r run) (hpc : s.routers r = .requeueing run d)
      (hwon : ((s.rows d).bind (·.requeue)).isSome) :
      Enacts s d (.router r .requeue) (.requeue (.gated r))
  | autoPost (r run copy outcome ok) (hpc : s.routers r = .posting run (some (d, copy))) :
      Enacts s d (.router r (.post outcome)) (.post (.router r) ok)
  | autoMark (r run copy result) (hpc : s.routers r = .marking run d copy result) :
      Enacts s d (.router r .mark) (.mark (.router r))
  | autoEnd (r act) (hlost : (s.routers r).hold d = some .accepted → act = .dbError ∨ act = .crash) :
      Enacts s d (.router r act) (.letGo (.router r))
  | claim (q channel copy) (hpc : s.requests q = .claiming channel d copy)
      (hwon : ((s.rows d).bind (·.claim)).isSome) : Enacts s d (.request q .claim) (.take q)
  | retry (q channel copy) (hpc : s.requests q = .retrying channel d copy)
      (hwon : ((s.rows d).bind (·.retry)).isSome) : Enacts s d (.request q .retry) (.take q)
  | reject (q channel copy) (hpc : s.requests q = .rejecting channel d copy)
      (hwon : ((s.rows d).bind (·.reject)).isSome) : Enacts s d (.request q .reject) (.reject q)
  | requeue (q) (hpc : s.requests q = .requeueing d)
      (hwon : ((s.rows d).bind (·.requeue)).isSome) :
      Enacts s d (.request q .requeue) (.requeue (.human q))
  | post (q act ok) : Enacts s d (.request q act) (.post (.request q) ok)
  | mark (q act) : Enacts s d (.request q act) (.mark (.request q))
  | finish (q act) : Enacts s d (.request q act) (.letGo (.request q))
  | sweep (q copies) (hpc : s.requests q = .swept copies) (hmem : d ∈ copies.map (·.1)) :
      Enacts s d (.request q .commit) (.sweep q)

def State.Turn (s : State) (d : DecisionId) (a : Step) (t : State) : Prop :=
  t.life d = s.life d ∨
    ∃ act, s.Enacts d a act ∧ (s.life d).step act = some (t.life d)

section
variable {s : State} {d : DecisionId} {r : RouterId} {q : RequestId}

theorem router_end {act : RouterAct} {eff : Effect RouterPc} (h : eff.Quiet s.rows d)
    (hhold : eff.pc.hold d = none)
    (hlost : (s.routers r).hold d = some .accepted → act = .dbError ∨ act = .crash) :
    s.Turn d (.router r act) (s.applyRouter r eff) := by
  by_cases hnone : (s.routers r).hold d = none
  · exact .inl (router_quiet h (hhold.trans hnone.symm))
  · refine .inr ⟨.letGo (.router r), .autoEnd r act hlost, ?_⟩
    have hself : (s.life d).hold (.router r) ≠ none := hnone
    rw [applyRouter_life, h.life, hhold]
    simp [Life.step, hself]

theorem request_end {act : RequestAct} {eff : Effect RequestPc} (h : eff.Quiet s.rows d)
    (hhold : eff.pc.hold d = none) : s.Turn d (.request q act) (s.applyRequest q eff) := by
  by_cases hnone : (s.requests q).hold d = none
  · exact .inl (request_quiet h (hhold.trans hnone.symm))
  · refine .inr ⟨.letGo (.request q), .finish q act, ?_⟩
    have hself : (s.life d).hold (.request q) ≠ none := hnone
    rw [applyRequest_life, h.life, hhold]
    simp [Life.step, hself]

end

theorem ReviewDecision.mark_clean {row copy : ReviewDecision} {result : ActionResult}
    (h : result.status = copy.status) : (row.mark copy result).status = row.status := by
  unfold ReviewDecision.mark
  unfold ActionResult.status at h
  split <;> rename_i hok <;> simp [hok] at h <;> simp [← h]

theorem ReviewDecision.mark_dirty {row copy : ReviewDecision} {result : ActionResult}
    (h : result.status ≠ copy.status) : (row.mark copy result).status = result.status := by
  unfold ReviewDecision.mark ActionResult.status
  unfold ActionResult.status at h
  split <;> rename_i hok <;> simp only [hok, if_true, Bool.false_eq_true, if_false] at h
  · exact column_dirty h _
  · exact column_dirty h _

section
variable {Pc : Type} {s : State} {d : DecisionId} {eff : Effect Pc}

theorem apply_assign {new : ReviewDecision} {setter : Setter} (hwrite : eff.write d = some new)
    (hsets : eff.events.filterMap (Event.setting d) = [(new.status, setter)])
    (haccepts : eff.events.countP (Event.acceptedPost d) = 0) :
    (s.apply eff).life d = (s.life d).assign new.status setter := by
  rw [apply_life, hwrite, hsets, haccepts, Nat.zero_add]
  rfl

theorem apply_create {r : RouterId} {auto : Bool} {new : ReviewDecision} (hrow : s.rows d = none)
    (hwrite : eff.write d = some new) (hst : new.status = .pending)
    (hsets : eff.events.filterMap (Event.setting d) =
      [(new.status, if auto then .auto r else .gated r)])
    (haccepts : eff.events.countP (Event.acceptedPost d) = 0) :
    (s.life d).step (.create r auto) = some (((s.apply eff).life d).hand (.router r)
      (if auto then some .taken else none)) := by
  have hnone : (s.life d).status = none := by simp [State.life, hrow]
  rw [apply_assign hwrite hsets haccepts, hst]
  simp only [Life.step, hnone, if_true]

theorem apply_take {q : RequestId} {row new : ReviewDecision} (hrow : s.rows d = some row)
    (htakeable : row.status = .pending ∨ row.status = .failed) (hwrite : eff.write d = some new)
    (hst : new.status = .approved)
    (hsets : eff.events.filterMap (Event.setting d) = [(new.status, .human q)])
    (haccepts : eff.events.countP (Event.acceptedPost d) = 0) :
    (s.life d).step (.take q) =
      some (((s.apply eff).life d).hand (.request q) (some .taken)) := by
  have hopen : (s.life d).status = some .pending ∨ (s.life d).status = some .failed := by
    simpa [State.life, hrow] using htakeable
  rw [apply_assign hwrite hsets haccepts, hst]
  simp only [Life.step, hopen, if_true]

theorem apply_reject {q : RequestId} {row new : ReviewDecision}
    (hnone : s.hold d (.request q) = none) (hrow : s.rows d = some row)
    (hpending : row.status = .pending) (hwrite : eff.write d = some new)
    (hst : new.status = .rejected)
    (hsets : eff.events.filterMap (Event.setting d) = [(new.status, .human q)])
    (haccepts : eff.events.countP (Event.acceptedPost d) = 0) :
    (s.life d).step (.reject q) = some (((s.apply eff).life d).hand (.request q) none) := by
  have hopen : (s.life d).status = some .pending := by simp [State.life, hrow, hpending]
  have hself : ((s.life d).assign .rejected (.human q)).hold (.request q) = none := hnone
  rw [apply_assign hwrite hsets haccepts, hst, Life.hand_none hself]
  simp only [Life.step, hopen, if_true]

theorem apply_requeue {o : Actor} {setter : Setter} {row new : ReviewDecision}
    (hnone : s.hold d o = none) (hrow : s.rows d = some row) (hnew : row.requeue = some new) (hwrite : eff.write d = some new)
    (hsets : eff.events.filterMap (Event.setting d) = [(.pending, setter)])
    (haccepts : eff.events.countP (Event.acceptedPost d) = 0) :
    (s.life d).step (.requeue setter) = some (((s.apply eff).life d).hand o none) := by
  obtain ⟨hfailed, rfl⟩ := ReviewDecision.requeue_eq_some.mp hnew
  have hopen : (s.life d).status = some .failed := by simp [State.life, hrow, hfailed]
  have hself : ((s.life d).assign .pending setter).hold o = none := hnone
  rw [apply_assign hwrite hsets haccepts, Life.hand_none hself]
  simp only [Life.step, hopen, if_true]

theorem apply_sweep {q : RequestId} {row new : ReviewDecision}
    (hnone : s.hold d (.request q) = none) (hrow : s.rows d = some row)
    (hwrite : eff.write d = some new) (hst : new.status = .failed)
    (hsets : eff.events.filterMap (Event.setting d) = [(.failed, .sweep q)])
    (haccepts : eff.events.countP (Event.acceptedPost d) = 0) :
    (s.life d).step (.sweep q) = some (((s.apply eff).life d).hand (.request q) none) := by
  have hsome : (s.life d).status ≠ none := by simp [State.life, hrow]
  have hself : ((s.life d).assign .failed (.sweep q)).hold (.request q) = none := hnone
  rw [← hst] at hsets
  rw [apply_assign hwrite hsets haccepts, hst, Life.hand_none hself]
  simp only [Life.step, hsome, if_false]

theorem apply_post {o : Actor} {ok : Bool} (hhold : s.hold d o = some .taken)
    (hwrite : eff.write d = none) (hsets : eff.events.filterMap (Event.setting d) = [])
    (haccepts : eff.events.countP (Event.acceptedPost d) = ok.toNat) :
    (s.life d).step (.post o ok) =
      some (((s.apply eff).life d).hand o (some (if ok then .accepted else .refused))) := by
  have hself : (s.life d).hold o = some .taken := hhold
  rw [apply_life, hwrite, hsets, haccepts, Nat.add_comm]
  simp only [Life.step, hself, if_true]
  rfl

theorem apply_mark {o : Actor} {hold : Hold} {new : ReviewDecision} (hhold : s.hold d o = some hold)
    (hwrite : eff.write d = some new) (hst : new.status = hold.mark)
    (hsets : eff.events.filterMap (Event.setting d) = [(new.status, o.setter)])
    (haccepts : eff.events.countP (Event.acceptedPost d) = 0) :
    (s.life d).step (.mark o) = some (((s.apply eff).life d).hand o none) := by
  have hself : (s.life d).hold o = some hold := hhold
  rw [apply_assign hwrite hsets haccepts, hst]
  simp only [Life.step, hself, Option.map_some]

end

theorem afterNotice_hold (run : RouterRun) (i : DecisionId) (copy : ReviewDecision)
    (d : DecisionId) : (afterNotice run i copy).hold d = none := by
  obtain ⟨result, heq⟩ | ⟨-, heq⟩ := afterNotice_cases run i copy <;> rw [heq] <;> rfl

theorem afterEnqueue_hold (u : Unicode) (run : RouterRun) (i : DecisionId) (copy : ReviewDecision)
    (created : Bool) (d : DecisionId) :
    (afterEnqueue u run i copy created).hold d = none ∨
    (i = d ∧ run.decision.requiresApproval = false ∧ (created = true ∨ copy.status = .failed) ∧
      (afterEnqueue u run i copy created).hold d = some .taken) := by
  obtain ⟨result, heq⟩ | ⟨-, ⟨comment, -, -, heq⟩ | ⟨-, heq⟩⟩ | ⟨hauto, hopen, heq⟩ :=
    afterEnqueue_cases u run i copy created
  · exact .inl (by rw [heq]; rfl)
  · exact .inl (by rw [heq]; rfl)
  · exact .inl (by rw [heq]; rfl)
  · by_cases hi : i = d
    · refine .inr ⟨hi, hauto, hopen, ?_⟩
      rw [heq]
      simp [RouterPc.hold, hi]
    · exact .inl (by simp [heq, RouterPc.hold, hi])

theorem created_hold (u : Unicode) (run : RouterRun) (d : DecisionId) (row : ReviewDecision)
    (hst : row.status = .pending) :
    (afterEnqueue u run d row true).hold d =
      if run.decision.requiresApproval then none else some .taken := by
  obtain hnone | ⟨-, hauto, -, htaken⟩ := afterEnqueue_hold u run d row true d
  · cases happ : run.decision.requiresApproval with
    | true => exact hnone
    | false => simp [afterEnqueue, hst, happ, RouterPc.hold] at hnone
  · rw [htaken, hauto]
    rfl

section
variable {cfg : Settings} {base : DecisionId} {s : State} {r : RouterId} {act : RouterAct}
  {eff : Effect RouterPc}

theorem turn_found (d : DecisionId) {run : RouterRun} {key : String} {i : DecisionId}
    {row : ReviewDecision}
    (hpc : s.routers r = .selecting run key ∨ s.routers r = .reselecting run key)
    (hfind : findDecision s.rows s.nextId key = some (i, row)) :
    s.Turn d (.router r .select)
      (s.applyRouter r { pc := afterEnqueue cfg.unicode run i row false }) := by
  have hquiet : Effect.Quiet s.rows d
      ({ pc := afterEnqueue cfg.unicode run i row false } : Effect RouterPc) :=
    .of_nothing rfl fun e he => by cases he
  have hbefore : (s.routers r).hold d = none := by
    obtain hpc | hpc := hpc <;> rw [hpc] <;> rfl
  obtain hnone | ⟨rfl, hauto, hopen, htaken⟩ :=
    afterEnqueue_hold cfg.unicode run i row false d
  · exact .inl (router_quiet hquiet (hnone.trans hbefore.symm))
  · have hst : row.status = .failed := by
      obtain hcreated | hfailed := hopen
      · cases hcreated
      · exact hfailed
    refine .inr ⟨.pickUp r, .pickUp r run key row hpc hfind hauto hst, ?_⟩
    have hrow := (findDecision_eq_some hfind).1
    rw [applyRouter_life, hquiet.life, htaken]
    simp [Life.step, State.life, hrow, hst]

theorem turn_insert (hwf : WellFormed cfg s) (d : DecisionId) {run : RouterRun} {key : String}
    {row : ReviewDecision} (hpc : s.routers r = .inserting run key row)
    (hfind : findDecision s.rows s.nextId key = none) :
    s.Turn d (.router r .insert)
      (s.applyRouter r { pc := afterEnqueue cfg.unicode run s.nextId row true,
                         write := only s.nextId row, grow := true,
                         events := [.set s.nextId .pending (run.setter r)] }) := by
  by_cases hd : s.nextId = d
  · subst hd
    have hst := (newDecision_key (hwf.inserting r run key row hpc)).2.1
    refine .inr ⟨_, .create r run key row hpc hfind rfl, ?_⟩
    rw [applyRouter_life, created_hold cfg.unicode run s.nextId row hst]
    cases happ : run.decision.requiresApproval with
    | true =>
      apply apply_create hwf.rows_nextId (only_self s.nextId row) hst
      · simp [Event.setting, hst, RouterRun.setter, happ]
      · rfl
    | false =>
      apply apply_create hwf.rows_nextId (only_self s.nextId row) hst
      · simp [Event.setting, hst, RouterRun.setter, happ]
      · rfl
  · have hne : d ≠ s.nextId := fun heq => hd heq.symm
    refine .inl (router_quiet (.of_nothing (only_of_ne row hne) ?_) ?_)
    · intro e he
      cases List.mem_singleton.mp he
      simp [Event.setting, Event.acceptedPost, hd]
    · obtain hnone | ⟨heq, -⟩ := afterEnqueue_hold cfg.unicode run s.nextId row true d
      · rw [hpc]
        exact hnone
      · exact absurd heq hd

theorem turn_post (d : DecisionId) {run : RouterRun} {i : DecisionId} {copy : ReviewDecision}
    {outcome : PostOutcome} {comment : Comment}
    (hpc : s.routers r = .posting run (some (i, copy))) :
    s.Turn d (.router r (.post outcome))
      (s.applyRouter r { pc := afterPost run (some (i, copy)) outcome,
                         events := [.posted (.router r) (some i) comment outcome.ok] }) := by
  by_cases hi : i = d
  · subst hi
    have hhold : (s.routers r).hold i = some .taken := by simp [hpc, RouterPc.hold]
    cases outcome with
    | raised =>
      refine router_end ⟨(fun _ hw => by cases hw), rfl, ?_⟩ rfl ?_
      · simp [Event.acceptedPost, PostOutcome.ok]
      · rw [hhold]
        intro h
        cases h
    | answered result =>
      by_cases hclean : result.ok = false ∧ copy.status = .failed
      · refine router_end ⟨(fun _ hw => by cases hw), rfl, ?_⟩ ?_ ?_
        · simp [Event.acceptedPost, PostOutcome.ok, hclean.1]
        · simp [afterPost, RouterPc.hold, hclean]
        · rw [hhold]
          intro h
          cases h
      · refine .inr ⟨_, .autoPost r run copy (.answered result) result.ok hpc, ?_⟩
        have hafter : (afterPost run (some (i, copy)) (.answered result)).hold i =
            some (if result.ok then .accepted else .refused) := by
          cases hok : result.ok with
          | true => simp [afterPost, RouterPc.hold, hok]
          | false =>
            have hst : copy.status ≠ .failed := fun hst => hclean ⟨hok, hst⟩
            simp [afterPost, RouterPc.hold, hok, hst]
        have hself : s.hold i (.router r) = some .taken := hhold
        rw [applyRouter_life, hafter]
        apply apply_post hself rfl
        · simp [Event.setting]
        · cases hok : result.ok <;> simp [Event.acceptedPost, PostOutcome.ok, hok]
  · refine .inl (router_quiet (.of_nothing rfl ?_) ?_)
    · intro e he
      cases List.mem_singleton.mp he
      simp [Event.setting, Event.acceptedPost, hi]
    · cases outcome <;> simp [hpc, afterPost, RouterPc.hold, hi]

theorem turn_mark (d : DecisionId) {run : RouterRun} {i : DecisionId} {copy row : ReviewDecision}
    {result : ActionResult} {after : RouterResult}
    (hpc : s.routers r = .marking run i copy result) (htakeable : copy.status.takeable = true)
    (hrow : s.rows i = some row) :
    s.Turn d (.router r .mark)
      (s.applyRouter r { pc := .returned after, write := only i (row.mark copy result),
                         events := markEvents i copy result.status (.auto r) }) := by
  have haccepts : (markEvents i copy result.status (.auto r)).countP (Event.acceptedPost d) = 0 := by
    unfold markEvents
    split <;> rfl
  by_cases hi : i = d
  · subst hi
    by_cases hclean : result.status = copy.status
    · refine .inl (router_quiet ⟨?_, ?_, haccepts⟩ ?_)
      · intro new hw
        obtain ⟨-, rfl⟩ := only_eq_some.mp hw
        exact ⟨row, hrow, ReviewDecision.mark_clean hclean⟩
      · simp [markEvents, hclean]
      · cases hok : result.ok with
        | true =>
          rw [ActionResult.status, hok, if_pos rfl] at hclean
          simp [← hclean, DecisionStatus.takeable] at htakeable
        | false =>
          rw [ActionResult.status, hok, if_neg (by simp)] at hclean
          simp [hpc, RouterPc.hold, hok, ← hclean]
    · refine .inr ⟨.mark (.router r), .autoMark r run copy result hpc, ?_⟩
      rw [applyRouter_life]
      have hst : (row.mark copy result).status = result.status := ReviewDecision.mark_dirty hclean
      cases hok : result.ok with
      | true =>
        have hhold : s.hold i (.router r) = some .accepted := by
          simp [State.hold, hpc, RouterPc.hold, hok]
        apply apply_mark hhold (only_self i _) _ _ haccepts
        · simp [hst, ActionResult.status, hok, Hold.mark]
        · simp [markEvents, hclean, Event.setting, hst, Actor.setter]
      | false =>
        have hne : copy.status ≠ .failed := by
          intro heq
          simp [ActionResult.status, hok, heq] at hclean
        have hhold : s.hold i (.router r) = some .refused := by
          simp [State.hold, hpc, RouterPc.hold, hok, hne]
        apply apply_mark hhold (only_self i _) _ _ haccepts
        · simp [hst, ActionResult.status, hok, Hold.mark]
        · simp [markEvents, hclean, Event.setting, hst, Actor.setter]
  · refine .inl (router_quiet (.of_nothing (only_of_ne _ (fun heq => hi heq.symm)) ?_) ?_)
    · intro e he
      rw [(markEvents_cases he).1]
      simp [Event.setting, Event.acceptedPost, hi]
    · simp [hpc, RouterPc.hold, hi]

theorem comment_ne_none {u : Unicode} {run : RouterRun} (hact : run.decision.isActionable = true) :
    run.comment u ≠ .ok none := by
  unfold RouterRun.comment executeDecision
  intro h
  cases hpr : (run.state.prNumber.getD (.int 0)).toInt u with
  | error e => simp [hpr, bind, Except.bind] at h
  | ok n =>
    cases haction : run.decision.action <;>
      simp [hpr, haction, bind, Except.bind, pure, Except.pure] at h
    simp [RoutingDecision.isActionable, haction] at hact

theorem RouterMove.turn (hwf : WellFormed cfg s) (hg : Gated cfg s) (hin : InHand base s)
    (h : RouterMove cfg s.rows s.nextId r (s.routers r) act eff) (d : DecisionId) :
    s.Turn d (.router r act) (s.applyRouter r eff) := by
  have hrun := hg.run r
  have htarget := hin.target r
  have hloaded := hwf.routers r
  generalize hpc : s.routers r = pc at h hrun htarget hloaded
  cases h with
  | start state stored =>
    refine .inl (router_quiet (.of_nothing rfl ?_) ?_)
    · intro e he
      cases List.mem_singleton.mp he
      exact ⟨rfl, rfl⟩
    · rw [hpc]
      obtain heq | ⟨result, heq⟩ | ⟨decision, -, -, ⟨key, heq⟩ | ⟨-, heq⟩⟩ :=
        startRun_cases cfg state stored <;> rw [heq] <;> rfl
  | found run key i row hfind => exact turn_found d (.inl hpc) hfind
  | refound run key i row hfind => exact turn_found d (.inr hpc) hfind
  | insert run key row hfind => exact turn_insert hwf d hpc hfind
  | build | buildError | insertTaken | refoundNone =>
    refine .inl (router_quiet (.of_nothing rfl fun e he => by cases he) ?_)
    rw [hpc]
    rfl
  | notify run i copy comment outcome =>
    refine .inl (router_quiet (.of_nothing rfl ?_) ?_)
    · intro e he
      cases List.mem_singleton.mp he
      exact ⟨rfl, rfl⟩
    · rw [hpc, afterNotice_hold]
      rfl
  | requeueWon run i row new hrow hnew =>
    have hnone : s.hold d (.router r) = none := by simp [State.hold, hpc, RouterPc.hold]
    by_cases hi : i = d
    · subst hi
      refine .inr ⟨.requeue (.gated r), .reopen r run hpc (by simp [hrow, hnew]), ?_⟩
      rw [applyRouter_life]
      apply apply_requeue hnone hrow hnew (only_self i new)
      · simp [Event.setting]
      · simp [Event.acceptedPost]
    · refine .inl (router_quiet (.of_nothing (only_of_ne new fun heq => hi heq.symm) ?_) ?_)
      · intro e he
        cases List.mem_singleton.mp he
        simp [Event.setting, Event.acceptedPost, hi]
      · exact hnone.symm
  | requeueLost run i hrow =>
    refine .inl (router_quiet (.of_nothing rfl fun e he => by cases he) ?_)
    rw [hpc]
    rfl
  | post run target outcome comment hcomment =>
    cases target with
    | some found => exact turn_post d hpc
    | none =>
      refine .inl (router_quiet (.of_nothing rfl ?_) ?_)
      · intro e he
        cases List.mem_singleton.mp he
        exact ⟨rfl, rfl⟩
      · cases outcome <;> rw [hpc] <;> rfl
  | postNothing run target outcome hcomment =>
    exact absurd hcomment (comment_ne_none (hrun run rfl).2.2)
  | postError run target outcome e hcomment =>
    refine router_end (.of_nothing rfl fun e he => by cases he) ?_ ?_
    · cases target <;> rfl
    · rw [hpc]
      cases target with
      | none => simp [RouterPc.hold]
      | some found => simp [RouterPc.hold]
  | mark run i copy result row hrow => exact turn_mark d hpc (htarget (i, copy) rfl) hrow
  | markMissing run i copy result hrow =>
    obtain ⟨row, hsome, -⟩ := hloaded (i, copy) (List.mem_singleton_self _)
    cases hrow.symm.trans hsome
  | dbError pc result =>
    exact router_end (.of_nothing rfl fun e he => by cases he) rfl fun _ => .inl rfl
  | crash pc =>
    exact router_end (.of_nothing rfl fun e he => by cases he) rfl fun _ => .inr rfl

end

section
variable {cfg : Settings} {q : RequestId} {d : DecisionId}

theorem finish_hold (channel : Channel) (i : DecisionId) (verb : Verb) (outcome : Outcome) :
    (channel.finish i verb outcome).hold d = none := by
  obtain heq | ⟨comment, heq⟩ := finish_cases channel i verb outcome <;> rw [heq] <;> rfl

theorem afterClaimed_hold (cfg : Settings) (channel : Channel) (i : DecisionId)
    (copy : ReviewDecision) :
    (afterClaimed cfg channel i copy).hold d = if i = d then some .taken else none := by
  obtain ⟨-, heq⟩ | heq := afterClaimed_cases cfg channel i copy <;> rw [heq] <;> rfl

theorem afterClaim_hold (channel : Channel) (i : DecisionId) (copy : ReviewDecision)
    (won : Bool) :
    (afterClaim cfg q channel i copy won).pc.hold d = if won ∧ i = d then some .taken else none := by
  cases won with
  | true => simp [afterClaim, afterClaimed_hold]
  | false =>
    obtain ⟨outcome, heq⟩ | ⟨-, heq⟩ := afterLost_cases channel i copy
    · simp [afterClaim, heq, finish_hold]
    · simp [afterClaim, heq, RequestPc.hold]

theorem claimNext_hold (channel : Channel) (i : DecisionId) (held : Option ReviewDecision)
    (won : Bool) :
    (claimNext cfg q channel i held won).pc.hold d = if won ∧ i = d then some .taken else none := by
  cases held with
  | none => cases won <;> simp [claimNext, RequestPc.hold]
  | some copy => exact afterClaim_hold channel i _ won

theorem rejectNext_hold (channel : Channel) (i : DecisionId) (held : Option ReviewDecision)
    (won : Bool) : (rejectNext channel i held won).hold d = none := by
  cases held with
  | none => rfl
  | some copy => exact finish_hold ..

theorem claimNext_events {channel : Channel} {i : DecisionId} {held : Option ReviewDecision}
    {won : Bool} {e : Event} (he : e ∈ (claimNext cfg q channel i held won).events) :
    e = .claimed q i := by
  cases held with
  | none => cases he
  | some copy =>
    cases won with
    | true => exact List.mem_singleton.mp he
    | false => cases he

theorem claimNext_write (channel : Channel) (i : DecisionId) (held : Option ReviewDecision)
    (won : Bool) : (claimNext cfg q channel i held won).write d = none := by
  cases held <;> cases won <;> rfl

theorem sweep_settings (copies : List (DecisionId × ReviewDecision)) (q : RequestId)
    (hnodup : (copies.map (·.1)).Nodup) :
    (copies.map fun c => Event.set c.1 .failed (.sweep q)).filterMap (Event.setting d) =
      if d ∈ copies.map (·.1) then [(.failed, .sweep q)] else [] := by
  induction copies with
  | nil => rfl
  | cons c rest ih =>
    obtain ⟨hfresh, hrest⟩ := List.nodup_cons.mp hnodup
    have ih := ih hrest
    rw [List.map_cons, List.filterMap_cons, ih]
    by_cases hc : c.1 = d
    · subst hc
      simp only [Event.setting, if_true, List.map_cons, List.mem_cons_self, if_neg hfresh]
    · simp only [Event.setting, if_neg hc, List.map_cons, List.mem_cons]
      have hiff : (d = c.1 ∨ d ∈ rest.map (·.1)) ↔ d ∈ rest.map (·.1) :=
        ⟨fun h => h.resolve_left fun heq => hc heq.symm, .inr⟩
      simp only [hiff]

end

section
variable {cfg : Settings} {base : DecisionId} {s : State} {q : RequestId} {act : RequestAct}
  {eff : Effect RequestPc}

theorem turn_claim (d : DecisionId) {channel : Channel} {i : DecisionId}
    {copy : Option ReviewDecision} {row new : ReviewDecision}
    (hpc : s.requests q = .claiming channel i copy) (hrow : s.rows i = some row)
    (hnew : row.claim = some new) :
    s.Turn d (.request q .claim) (s.applyRequest q {
      claimNext cfg q channel i copy true with
      write := only i new
      events := (claimNext cfg q channel i copy true).events ++ [.set i .approved (.human q)] }) := by
  by_cases hi : i = d
  · subst hi
    obtain ⟨hst, hnewst⟩ := ReviewDecision.transition_eq_some.mp hnew
    refine .inr ⟨.take q, .claim q channel copy hpc (by simp [hrow, hnew]), ?_⟩
    rw [applyRequest_life, claimNext_hold, if_pos ⟨rfl, rfl⟩]
    apply apply_take hrow (.inl hst) (only_self i new) (by rw [hnewst])
    · rw [List.filterMap_append, List.filterMap_eq_nil_iff.mpr, hnewst]
      · simp [Event.setting]
      · intro e he
        rw [claimNext_events he]
        rfl
    · rw [List.countP_append, List.countP_eq_zero.mpr]
      · rfl
      · intro e he
        rw [claimNext_events he]
        simp [Event.acceptedPost]
  · refine .inl (request_quiet (.of_nothing (only_of_ne new fun heq => hi heq.symm) ?_) ?_)
    · intro e he
      obtain hold | hset := List.mem_append.mp he
      · rw [claimNext_events hold]
        exact ⟨rfl, rfl⟩
      · cases List.mem_singleton.mp hset
        simp [Event.setting, Event.acceptedPost, hi]
    · rw [claimNext_hold, if_neg (by simp [hi]), hpc]
      rfl

theorem turn_retry (d : DecisionId) {channel : Channel} {i : DecisionId}
    {copy row new : ReviewDecision} (hpc : s.requests q = .retrying channel i copy)
    (hrow : s.rows i = some row) (hnew : row.retry = some new) :
    s.Turn d (.request q .retry) (s.applyRequest q {
      pc := afterClaimed cfg channel i (copy.evaluate .failed .approved)
      write := only i new
      events := [.claimed q i, .set i .approved (.human q)] }) := by
  by_cases hi : i = d
  · subst hi
    obtain ⟨hst, hnewst⟩ := ReviewDecision.transition_eq_some.mp hnew
    refine .inr ⟨.take q, .retry q channel copy hpc (by simp [hrow, hnew]), ?_⟩
    rw [applyRequest_life, afterClaimed_hold, if_pos rfl]
    apply apply_take hrow (.inr hst) (only_self i new) (by rw [hnewst])
    · simp [List.filterMap_cons, Event.setting, hnewst]
    · simp [Event.acceptedPost]
  · refine .inl (request_quiet (.of_nothing (only_of_ne new fun heq => hi heq.symm) ?_) ?_)
    · simp [Event.setting, Event.acceptedPost, hi]
    · rw [afterClaimed_hold, if_neg hi, hpc]
      rfl

theorem turn_reject (d : DecisionId) {channel : Channel} {i : DecisionId}
    {copy : Option ReviewDecision} {row new : ReviewDecision}
    (hpc : s.requests q = .rejecting channel i copy) (hrow : s.rows i = some row)
    (hnew : row.reject = some new) :
    s.Turn d (.request q .reject) (s.applyRequest q {
      pc := rejectNext channel i copy true, write := only i new,
      events := [.set i .rejected (.human q)] }) := by
  have hnone : s.hold d (.request q) = none := by simp [State.hold, hpc, RequestPc.hold]
  by_cases hi : i = d
  · subst hi
    obtain ⟨hst, hnewst⟩ := ReviewDecision.transition_eq_some.mp hnew
    refine .inr ⟨.reject q, .reject q channel copy hpc (by simp [hrow, hnew]), ?_⟩
    rw [applyRequest_life, rejectNext_hold]
    apply apply_reject hnone hrow hst (only_self i new) (by rw [hnewst])
    · simp [Event.setting, hnewst]
    · simp [Event.acceptedPost]
  · refine .inl (request_quiet (.of_nothing (only_of_ne new fun heq => hi heq.symm) ?_) ?_)
    · simp [Event.setting, Event.acceptedPost, hi]
    · rw [rejectNext_hold]
      exact hnone.symm

theorem turn_requeue (d : DecisionId) {i : DecisionId} {row new : ReviewDecision}
    (hpc : s.requests q = .requeueing i) (hrow : s.rows i = some row)
    (hnew : row.requeue = some new) :
    s.Turn d (.request q .requeue) (s.applyRequest q {
      pc := .answered (.requeued true), write := only i new,
      events := [.set i .pending (.human q)] }) := by
  have hnone : s.hold d (.request q) = none := by simp [State.hold, hpc, RequestPc.hold]
  by_cases hi : i = d
  · subst hi
    refine .inr ⟨.requeue (.human q), .requeue q hpc (by simp [hrow, hnew]), ?_⟩
    rw [applyRequest_life]
    apply apply_requeue hnone hrow hnew (only_self i new)
    · simp [Event.setting]
    · simp [Event.acceptedPost]
  · refine .inl (request_quiet (.of_nothing (only_of_ne new fun heq => hi heq.symm) ?_) ?_)
    · simp [Event.setting, Event.acceptedPost, hi]
    · exact hnone.symm

theorem turn_requestMark (d : DecisionId) {i : DecisionId} {copy row new : ReviewDecision}
    (hold : Hold) (hhold : ∀ d, s.hold d (.request q) = if i = d then some hold else none)
    (hrow : s.rows i = some row) (hwrite : eff.write = only i new)
    (hnew : new.status = column copy.status hold.mark row.status)
    (hevents : eff.events = markEvents i copy hold.mark (.human q))
    (hpc : eff.pc.hold d = none) :
    s.Turn d (.request q act) (s.applyRequest q eff) := by
  have haccepts : eff.events.countP (Event.acceptedPost d) = 0 := by
    rw [hevents]
    unfold markEvents
    split <;> rfl
  by_cases hi : i = d
  · subst hi
    by_cases hclean : hold.mark = copy.status
    · refine request_end ⟨?_, ?_, haccepts⟩ hpc
      · intro updated hw
        rw [hwrite] at hw
        obtain ⟨-, rfl⟩ := only_eq_some.mp hw
        refine ⟨row, hrow, ?_⟩
        rw [hnew, hclean, column_clean]
      · simp [hevents, markEvents, hclean]
    · refine .inr ⟨.mark (.request q), .mark q act, ?_⟩
      have hst : new.status = hold.mark := hnew.trans (column_dirty hclean _)
      have hself : s.hold i (.request q) = some hold := by rw [hhold, if_pos rfl]
      rw [applyRequest_life, hpc]
      apply apply_mark hself _ hst _ haccepts
      · rw [hwrite]
        exact only_self i new
      · simp [hevents, markEvents, hclean, Event.setting, hst, Actor.setter]
  · refine .inl (request_quiet (.of_nothing ?_ ?_) ?_)
    · rw [hwrite]
      exact only_of_ne new fun heq => hi heq.symm
    · intro e he
      rw [hevents] at he
      rw [(markEvents_cases he).1]
      simp [Event.setting, Event.acceptedPost, hi]
    · have hnone : s.hold d (.request q) = none := by rw [hhold, if_neg hi]
      exact hpc.trans hnone.symm

theorem turn_requestPost (d : DecisionId) {channel : Channel} {i : DecisionId}
    {copy : ReviewDecision} {outcome : PostOutcome} {comment : Comment}
    (hpc : s.requests q = .posting channel i copy) :
    s.Turn d (.request q (.post outcome)) (s.applyRequest q {
      pc := afterExecute channel i copy outcome
      events := [.posted (.request q) (some i) comment outcome.ok] }) := by
  by_cases hi : i = d
  · subst hi
    have hself : s.hold i (.request q) = some .taken := by
      simp [State.hold, hpc, RequestPc.hold]
    cases outcome with
    | raised =>
      refine request_end ⟨(fun _ hw => by cases hw), rfl, ?_⟩ rfl
      simp [Event.acceptedPost, PostOutcome.ok]
    | answered result =>
      refine .inr ⟨_, .post q (.post (.answered result)) result.ok, ?_⟩
      have hafter : (afterExecute channel i copy (.answered result)).hold i =
          some (if result.ok then .accepted else .refused) := by
        simp [afterExecute, RequestPc.hold]
      rw [applyRequest_life, hafter]
      apply apply_post hself rfl
      · simp [Event.setting]
      · cases hok : result.ok <;> simp [Event.acceptedPost, PostOutcome.ok, hok]
  · refine .inl (request_quiet (.of_nothing rfl ?_) ?_)
    · simp [Event.setting, Event.acceptedPost, hi]
    · cases outcome <;> simp [hpc, afterExecute, RequestPc.hold, hi]

theorem turn_sweep (hwf : WellFormed cfg s) (hin : InHand base s) (d : DecisionId)
    {copies : List (DecisionId × ReviewDecision)} (hpc : s.requests q = .swept copies) :
    s.Turn d (.request q .commit) (s.applyRequest q {
      pc := .answered (.swept copies.length)
      write := fun d => (copies.lookup d).bind fun copy => (s.rows d).map (·.sweep copy)
      events := copies.map fun c => .set c.1 .failed (.sweep q) }) := by
  obtain ⟨hnodup, happroved⟩ := hin.swept q copies hpc
  have hnone : s.hold d (.request q) = none := by simp [State.hold, hpc, RequestPc.hold]
  have haccepts : (copies.map fun c => Event.set c.1 .failed (.sweep q)).countP
      (Event.acceptedPost d) = 0 := by
    apply List.countP_eq_zero.mpr
    intro e he
    obtain ⟨c, -, rfl⟩ := List.mem_map.mp he
    simp [Event.acceptedPost]
  by_cases hmem : d ∈ copies.map (·.1)
  · obtain ⟨c, hc, rfl⟩ := List.mem_map.mp hmem
    obtain ⟨copy, hlookup⟩ : ∃ copy, copies.lookup c.1 = some copy :=
      Option.isSome_iff_exists.mp (List.lookup_isSome_iff.mpr ⟨c, hc, by simp⟩)
    obtain ⟨before, after, rfl, -⟩ := List.lookup_eq_some_iff.mp hlookup
    have hcopy := happroved (c.1, copy) (by simp)
    obtain ⟨row, hrow, -⟩ := hwf.requests q c (by rw [hpc]; exact hc)
    refine .inr ⟨.sweep q, .sweep q _ hpc hmem, ?_⟩
    have hst : (row.sweep copy).status = .failed := by
      rw [ReviewDecision.sweep_status, hcopy]
      exact column_dirty (by simp) _
    rw [applyRequest_life]
    apply apply_sweep hnone hrow _ hst _ haccepts
    · simp [hlookup, hrow]
    · rw [sweep_settings _ q hnodup, if_pos hmem]
  · have hlookup : copies.lookup d = none := by
      apply List.lookup_eq_none_iff.mpr
      intro c hc
      have hne : d ≠ c.1 := fun heq => hmem (heq ▸ List.mem_map_of_mem hc)
      simp [hne]
    refine .inl (request_quiet ⟨?_, ?_, haccepts⟩ hnone.symm)
    · intro new hw
      simp [hlookup] at hw
    · rw [sweep_settings copies q hnodup, if_neg hmem]

theorem copy_comment_ne_none {u : Unicode} {copy : ReviewDecision} {action : Action}
    (hvalue : copy.action = action.value) (hact : action ≠ .none) :
    ∃ comment, copy.comment u = .ok (some comment) := by
  unfold ReviewDecision.comment
  rw [hvalue, Action.ofValue_value]
  cases action with
  | none => exact absurd rfl hact
  | _ => exact ⟨_, rfl⟩

theorem RequestMove.turn (hwf : WellFormed cfg s) (hin : InHand base s) {d : DecisionId}
    (hd : base ≤ d) (h : RequestMove cfg s.rows s.nextId q (s.requests q) act eff) :
    s.Turn d (.request q act) (s.applyRequest q eff) := by
  have hcopies := hwf.requests q
  generalize hpc : s.requests q = pc at h hcopies
  cases h with
  | begin verb channel i =>
    refine .inl (request_quiet (.of_nothing rfl ?_) ?_)
    · simp [Event.setting, Event.acceptedPost]
    · rw [hpc]
      obtain ⟨outcome, heq⟩ | heq | heq | ⟨repo, n, installation, heq⟩ :=
        startRequest_cases cfg verb channel i <;> rw [heq] <;> rfl
  | beginRequeue i | beginSweep =>
    refine .inl (request_quiet (.of_nothing rfl ?_) ?_)
    · simp [Event.setting, Event.acceptedPost]
    · rw [hpc]
      rfl
  | lookApprove repo n installation i row | lookReject repo n installation i row =>
    refine .inl (request_quiet (.of_nothing rfl fun e he => by cases he) ?_)
    rw [hpc]
    rfl
  | lookNone verb repo n installation i =>
    exact request_end (.of_nothing rfl fun e he => by cases he)
      (finish_hold (.comment repo n installation) i verb .noDecision)
  | claimWon channel i held row new hrow hnew => exact turn_claim d hpc hrow hnew
  | claimLost channel i held =>
    refine request_end (.of_nothing (claimNext_write ..) ?_) (by simp [claimNext_hold])
    intro e he
    rw [claimNext_events he]
    exact ⟨rfl, rfl⟩
  | load i won row hrow =>
    refine .inl (request_quiet (.of_nothing (by cases won <;> rfl) ?_) ?_)
    · intro e he
      cases won with
      | true =>
        cases List.mem_singleton.mp he
        exact ⟨rfl, rfl⟩
      | false => cases he
    · rw [afterClaim_hold, hpc]
      cases won <;> simp [RequestPc.hold]
  | loadNone i won | loadRejectedNone i won =>
    exact request_end (.of_nothing rfl fun e he => by cases he) rfl
  | retryWon channel i copy row new hrow hnew => exact turn_retry d hpc hrow hnew
  | retryLost channel i copy =>
    exact request_end (.of_nothing rfl fun e he => by cases he)
      (finish_hold channel i .approve .inProgress)
  | hand i copy row hrow =>
    refine turn_requestMark d .taken ?_ hrow rfl rfl rfl rfl
    intro d
    simp [State.hold, hpc, RequestPc.hold]
  | handMissing i copy | markMissing channel i copy result =>
    exact request_end (.of_nothing rfl fun e he => by cases he) rfl
  | post channel i copy outcome comment => exact turn_requestPost d hpc
  | postNothing channel i copy outcome hcomment =>
    by_cases hi : i = d
    · subst hi
      obtain ⟨row, hrow, hcontent⟩ := hcopies (i, copy) (List.mem_singleton_self _)
      obtain ⟨action, hact, hvalue⟩ := hin.actionable i row hd hrow
      have hsame : copy.action = row.action := congrArg (·.action) hcontent
      obtain ⟨comment, hsome⟩ := copy_comment_ne_none (u := cfg.unicode) (hsame.trans hvalue) hact
      cases hcomment.symm.trans hsome
    · refine .inl (request_quiet (.of_nothing rfl fun e he => by cases he) ?_)
      simp [hpc, RequestPc.hold, hi]
  | postError channel i copy outcome e =>
    exact request_end (.of_nothing rfl fun e he => by cases he) rfl
  | mark channel i copy result row hrow =>
    have hmark : (if result.ok then Hold.accepted else .refused).mark = result.status := by
      cases hok : result.ok <;> simp [ActionResult.status, hok, Hold.mark]
    have hevents : markEvents i copy result.status (.human q) = markEvents i copy
        (if result.ok then Hold.accepted else .refused).mark (.human q) := by rw [hmark]
    refine turn_requestMark d (if result.ok then .accepted else .refused) ?_ hrow rfl ?_ hevents
      (finish_hold channel i .approve _)
    · intro d
      simp [State.hold, hpc, RequestPc.hold]
    · rw [hmark]
      cases hok : result.ok <;> simp [ReviewDecision.mark, ActionResult.status, hok]
  | rejectWon channel i held row new hrow hnew => exact turn_reject d hpc hrow hnew
  | rejectLost channel i held =>
    exact request_end (.of_nothing rfl fun e he => by cases he) (rejectNext_hold ..)
  | loadRejected i won row =>
    exact request_end (.of_nothing rfl fun e he => by cases he) (finish_hold .ops i .reject _)
  | requeueWon i row new hrow hnew => exact turn_requeue d hpc hrow hnew
  | requeueLost i =>
    exact request_end (.of_nothing rfl fun e he => by cases he) rfl
  | select copies hsome hcopies =>
    exact request_end (.of_nothing rfl fun e he => by cases he) rfl
  | selectNone =>
    exact request_end (.of_nothing rfl fun e he => by cases he) rfl
  | commit copies => exact turn_sweep hwf hin d hpc
  | reply comment outcome result =>
    refine request_end (.of_nothing rfl ?_) (by cases result <;> rfl)
    simp [Event.setting, Event.acceptedPost]
  | dbError pc | crash pc =>
    exact request_end (.of_nothing rfl fun e he => by cases he) rfl

theorem step_turn {a : Step} {t : State} (hwf : WellFormed cfg s) (hg : Gated cfg s)
    (hin : InHand base s) {d : DecisionId} (hd : base ≤ d) (h : step cfg s a = some t) :
    s.Turn d a t := by
  cases a with
  | router r act =>
    obtain ⟨eff, hmove, rfl⟩ := step_router h
    exact hmove.turn hwf hg hin d
  | request q act =>
    obtain ⟨eff, hmove, rfl⟩ := step_request h
    exact hmove.turn hwf hin hd

end

end AutoPR.Routing
