import AutoPR.Routing.AutoPath
import AutoPR.Routing.Channels

/-! The stored decision and the comment on GitHub. An approval posts the row that it
holds; the auto path posts what it has rendered itself, which is the stored comment for
a row that it creates, and not always for one that it takes up again. -/
namespace AutoPR.Routing
open Python UnitOfWork Transition

/-- The comment that the row records. -/
def ReviewDecision.stored (row : ReviewDecision) : Comment :=
  ⟨.str row.repo, row.prNumber, row.body⟩

def Comment.isStored (comment : Comment) (row : ReviewDecision) : Bool :=
  comment.repo.eqStr row.repo && comment.prNumber = row.prNumber && comment.body = row.body

def RouterRun.rendersAs (u : Unicode) (run : RouterRun) (row : ReviewDecision) : Bool :=
  match run.comment u with
  | .ok (some comment) => comment.isStored row
  | _ => true

/-- A comment of the row that GitHub has accepted. -/
def Event.shown (d : DecisionId) : Event → Option Comment
  | .posted _ (some i) comment true => if i = d then some comment else none
  | _ => none

namespace State

/-- The comments of the row that GitHub has accepted, newest first. -/
def shown (s : State) (d : DecisionId) : List Comment := s.events.filterMap (Event.shown d)

/-- An auto run takes the failed row up only to post the comment that it stores. -/
def rendersKept (cfg : Settings) (s : State) (d : DecisionId) : Step → Bool
  | .router r .select =>
      match s.routers r with
      | .selecting run key | .reselecting run key =>
          match findDecision s.rows s.nextId key with
          | some (i, row) =>
              i ≠ d || run.decision.requiresApproval || row.status ≠ .failed ||
                run.rendersAs cfg.unicode row
          | none => true
      | _ => true
  | _ => true

end State

theorem Comment.isStored_eq {comment : Comment} {row : ReviewDecision}
    (h : comment.isStored row = true) : comment = row.stored := by
  obtain ⟨repo, prNumber, body⟩ := comment
  simp only [Comment.isStored, Bool.and_eq_true, decide_eq_true_eq] at h
  obtain ⟨⟨hrepo, rfl⟩, rfl⟩ := h
  cases repo with
  | str s =>
    obtain rfl : s = row.repo := of_decide_eq_true hrepo
    rfl
  | _ => cases hrepo

theorem stored_of_content {row new : ReviewDecision} (h : new.content = row.content) :
    new.stored = row.stored := by
  have hrepo : new.repo = row.repo := congrArg (·.repo) h
  have hpr : new.prNumber = row.prNumber := congrArg (·.prNumber) h
  have hbody : new.body = row.body := congrArg (·.body) h
  simp only [ReviewDecision.stored, hrepo, hpr, hbody]

theorem executeDecision_comment {u : Unicode} {action : Action} {body : String} {repo pr : PyVal}
    {comment : Comment} (h : executeDecision u action body repo pr = .ok (some comment)) :
    ∃ n, pr.toInt u = .ok n ∧ comment = ⟨repo, n, body⟩ := by
  unfold executeDecision at h
  cases hpr : pr.toInt u with
  | error e => simp [hpr, bind, Except.bind] at h
  | ok n =>
    cases action <;> simp only [hpr, bind, Except.bind, pure, Except.pure, Except.ok.injEq,
      Option.some.injEq, reduceCtorEq] at h
    all_goals exact ⟨n, rfl, h.symm⟩

theorem copy_comment_stored {u : Unicode} {copy : ReviewDecision} {comment : Comment}
    (h : copy.comment u = .ok (some comment)) : comment = copy.stored := by
  unfold ReviewDecision.comment at h
  cases haction : Action.ofValue copy.action with
  | error e => simp [haction, bind, Except.bind] at h
  | ok action =>
    simp only [haction, bind, Except.bind] at h
    obtain ⟨n, hn, rfl⟩ := executeDecision_comment h
    cases hn
    rfl

theorem asStr_eq_ok {v : PyVal} {s : String} (h : v.asStr = .ok s) : v = .str s := by
  cases v with
  | str t =>
    cases h
    rfl
  | _ => cases h

theorem newDecision_address {u : Unicode} {state : PRState} {decision : RoutingDecision}
    {key : String} {row : ReviewDecision} (h : newDecision u state decision key = .ok row) :
    state.repo.getD (.str "?") = .str row.repo ∧
      (state.prNumber.getD (.int 0)).toInt u = .ok row.prNumber ∧ row.body = decision.body ∧
      row.installationId = installationIdFrom u state := by
  unfold newDecision at h
  cases hrepo : (state.repo.getD (.str "?")).asStr with
  | error e => simp [hrepo, bind, Except.bind] at h
  | ok repo =>
    cases hpr : (state.prNumber.getD (.int 0)).toInt u with
    | error e => simp [hrepo, hpr, bind, Except.bind] at h
    | ok n =>
      cases hsha : (state.commitSha.getD (.str "?")).asStr with
      | error e => simp [hrepo, hpr, hsha, bind, Except.bind] at h
      | ok sha =>
        simp only [hrepo, hpr, hsha, bind, Except.bind, pure, Except.pure, Except.ok.injEq] at h
        subst h
        exact ⟨asStr_eq_ok hrepo, rfl, rfl, rfl⟩

theorem newDecision_stored {u : Unicode} {run : RouterRun} {key : String} {row : ReviewDecision}
    {comment : Comment} (hnew : newDecision u run.state run.decision key = .ok row)
    (h : run.comment u = .ok (some comment)) : comment = row.stored := by
  obtain ⟨hrepo, hpr, hbody, -⟩ := newDecision_address hnew
  obtain ⟨n, hn, rfl⟩ := executeDecision_comment h
  cases hpr.symm.trans hn
  rw [hrepo, ← hbody]
  rfl

section
variable {cfg : Settings} {rows : DecisionTable} {nextId d : DecisionId} {copy : ReviewDecision}
  {result : ActionResult}

theorem RouterMove.posting {r : RouterId} {pc : RouterPc} {act : RouterAct} {eff : Effect RouterPc}
    (h : RouterMove cfg rows nextId r pc act eff) {run : RouterRun}
    (hpc : eff.pc = .posting run (some (d, copy))) :
    (∃ key, (pc = .selecting run key ∨ pc = .reselecting run key) ∧ act = .select ∧
      findDecision rows nextId key = some (d, copy) ∧ run.decision.requiresApproval = false ∧
      copy.status = .failed) ∨
    ∃ key, pc = .inserting run key copy ∧ d = nextId ∧ eff.write d = some copy := by
  cases h with
  | start state stored =>
    obtain heq | ⟨result, heq⟩ | ⟨decision, -, -, ⟨key, heq⟩ | ⟨-, heq⟩⟩ :=
      startRun_cases cfg state stored <;> cases heq.symm.trans hpc
  | found run' key i row hfind =>
    obtain ⟨result, heq⟩ | ⟨-, ⟨comment, -, -, heq⟩ | ⟨-, heq⟩⟩ | ⟨hauto, hopen, heq⟩ :=
      afterEnqueue_cases cfg.unicode run' i row false <;> cases heq.symm.trans hpc
    obtain hcreated | hfailed := hopen
    · cases hcreated
    · exact .inl ⟨key, .inl rfl, rfl, hfind, hauto, hfailed⟩
  | refound run' key i row hfind =>
    obtain ⟨result, heq⟩ | ⟨-, ⟨comment, -, -, heq⟩ | ⟨-, heq⟩⟩ | ⟨hauto, hopen, heq⟩ :=
      afterEnqueue_cases cfg.unicode run' i row false <;> cases heq.symm.trans hpc
    obtain hcreated | hfailed := hopen
    · cases hcreated
    · exact .inl ⟨key, .inr rfl, rfl, hfind, hauto, hfailed⟩
  | insert run' key row hfind =>
    obtain ⟨result, heq⟩ | ⟨-, ⟨comment, -, -, heq⟩ | ⟨-, heq⟩⟩ | ⟨-, -, heq⟩ :=
      afterEnqueue_cases cfg.unicode run' nextId row true <;> cases heq.symm.trans hpc
    exact .inr ⟨key, rfl, rfl, only_self nextId copy⟩
  | notify run' i copy' comment outcome =>
    obtain ⟨result, heq⟩ | ⟨-, heq⟩ := afterNotice_cases run' i copy' <;> cases heq.symm.trans hpc
  | post run' target outcome comment | postNothing run' target outcome
  | postError run' target outcome =>
    cases target <;> first | cases hpc | (cases outcome <;> cases hpc)
  | _ => cases hpc

theorem RouterMove.marking {r : RouterId} {pc : RouterPc} {act : RouterAct} {eff : Effect RouterPc}
    (h : RouterMove cfg rows nextId r pc act eff) {run : RouterRun}
    (hpc : eff.pc = .marking run d copy result) :
    pc = .posting run (some (d, copy)) ∧
    (run.comment cfg.unicode = .ok none ∨
      ∃ comment, eff.events = [.posted (.router r) (some d) comment result.ok]) := by
  cases h with
  | start state stored =>
    obtain heq | ⟨result, heq⟩ | ⟨decision, -, -, ⟨key, heq⟩ | ⟨-, heq⟩⟩ :=
      startRun_cases cfg state stored <;> cases heq.symm.trans hpc
  | found run' key i row hfind | refound run' key i row hfind =>
    obtain ⟨result, heq⟩ | ⟨-, ⟨comment, -, -, heq⟩ | ⟨-, heq⟩⟩ | ⟨-, -, heq⟩ :=
      afterEnqueue_cases cfg.unicode run' i row false <;> cases heq.symm.trans hpc
  | insert run' key row hfind =>
    obtain ⟨result, heq⟩ | ⟨-, ⟨comment, -, -, heq⟩ | ⟨-, heq⟩⟩ | ⟨-, -, heq⟩ :=
      afterEnqueue_cases cfg.unicode run' nextId row true <;> cases heq.symm.trans hpc
  | notify run' i copy' comment outcome =>
    obtain ⟨result, heq⟩ | ⟨-, heq⟩ := afterNotice_cases run' i copy' <;> cases heq.symm.trans hpc
  | post run' target outcome comment =>
    cases target with
    | none => cases outcome <;> cases hpc
    | some found =>
      cases outcome <;> cases hpc
      exact ⟨rfl, .inr ⟨comment, rfl⟩⟩
  | postNothing run' target outcome hnothing =>
    cases target <;> cases hpc
    exact ⟨rfl, .inl hnothing⟩
  | postError run' target outcome e => cases target <;> cases hpc
  | _ => cases hpc

def RequestPc.executing : RequestPc → Bool
  | .handing _ _ | .marking _ _ _ _ => true
  | _ => false

theorem finish_executing (channel : Channel) (i : DecisionId) (verb : Verb) (outcome : Outcome) :
    (channel.finish i verb outcome).executing = false := by
  obtain heq | ⟨comment, heq⟩ := finish_cases channel i verb outcome <;> rw [heq] <;> rfl

theorem afterClaimed_executing {channel : Channel} {i : DecisionId} {held : ReviewDecision}
    (h : (afterClaimed cfg channel i held).executing = true) :
    ∃ d copy, afterClaimed cfg channel i held = .handing d copy ∧ cfg.handoffMode = true := by
  obtain ⟨hmode, heq⟩ | heq := afterClaimed_cases cfg channel i held
  · exact ⟨i, held, heq, hmode⟩
  · rw [heq] at h
    cases h

theorem afterClaim_executing {q : RequestId} {channel : Channel} {i : DecisionId}
    {held : ReviewDecision} {won : Bool}
    (h : (afterClaim cfg q channel i held won).pc.executing = true) :
    ∃ d copy, (afterClaim cfg q channel i held won).pc = .handing d copy ∧
      cfg.handoffMode = true := by
  cases won with
  | true => exact afterClaimed_executing h
  | false =>
    obtain ⟨outcome, heq⟩ | ⟨-, heq⟩ := afterLost_cases channel i held
    · simp only [afterClaim, Bool.false_eq_true, if_false, heq, finish_executing] at h
    · simp only [afterClaim, Bool.false_eq_true, if_false, heq] at h
      cases h

theorem RequestMove.executing {q : RequestId} {pc : RequestPc} {act : RequestAct}
    {eff : Effect RequestPc} (h : RequestMove cfg rows nextId q pc act eff)
    (hpc : eff.pc.executing = true) :
    (∃ d copy, eff.pc = .handing d copy ∧ cfg.handoffMode = true) ∨
    ∃ channel d copy result, eff.pc = .marking channel d copy result ∧
      pc = .posting channel d copy ∧ (copy.comment cfg.unicode = .ok none ∨
        ∃ comment, eff.events = [.posted (.request q) (some d) comment result.ok]) := by
  cases h with
  | begin verb channel i =>
    obtain ⟨outcome, heq⟩ | heq | heq | ⟨repo, n, installation, heq⟩ :=
      startRequest_cases cfg verb channel i <;> rw [heq] at hpc <;> cases hpc
  | claimWon channel i held | claimLost channel i held =>
    cases held with
    | none => cases hpc
    | some copy => exact .inl (afterClaim_executing hpc)
  | load i won row => exact .inl (afterClaim_executing hpc)
  | retryWon channel i copy => exact .inl (afterClaimed_executing hpc)
  | post channel i copy outcome comment =>
    cases outcome with
    | raised => cases hpc
    | answered result => exact .inr ⟨channel, i, copy, result, rfl, rfl, .inr ⟨comment, rfl⟩⟩
  | postNothing channel i copy outcome hnothing =>
    exact .inr ⟨channel, i, copy, noAction, rfl, rfl, .inl hnothing⟩
  | lookNone | retryLost =>
    rw [finish_executing] at hpc
    cases hpc
  | mark channel i copy result =>
    simp only [afterMark, finish_executing] at hpc
    cases hpc
  | rejectWon channel i held | rejectLost channel i held =>
    cases held with
    | none => cases hpc
    | some copy =>
      simp only [rejectNext, afterReject, finish_executing] at hpc
      cases hpc
  | loadRejected i won row =>
    simp only [afterReject, finish_executing] at hpc
    cases hpc
  | reply comment outcome result => cases result <;> cases hpc
  | _ => cases hpc

theorem mark_executed {row held : ReviewDecision} (hnot : row.status ≠ .executed)
    (h : (row.mark held result).status = .executed) : result.ok = true := by
  unfold ReviewDecision.mark at h
  split at h
  · rename_i hok
    exact hok
  · obtain heq | heq := column_eq_or held.status .failed row.status
    · exact absurd (heq.symm.trans h) hnot
    · cases heq.symm.trans h

theorem RouterMove.executes {r : RouterId} {pc : RouterPc} {act : RouterAct} {eff : Effect RouterPc}
    (h : RouterMove cfg rows nextId r pc act eff) {new : ReviewDecision}
    (hpending : ∀ run key row, pc = .inserting run key row → row.status = .pending)
    (hw : eff.write d = some new) (hst : new.status = .executed)
    (hnot : ∀ row, rows d = some row → row.status ≠ .executed) :
    ∃ run copy result, pc = .marking run d copy result ∧ result.ok = true := by
  cases h with
  | insert run key row =>
    obtain ⟨rfl, rfl⟩ := only_eq_some.mp hw
    cases (hpending run key row rfl).symm.trans hst
  | requeueWon run i row updated hrow hnew =>
    obtain ⟨rfl, rfl⟩ := only_eq_some.mp hw
    rw [(ReviewDecision.requeue_eq_some.mp hnew).2] at hst
    cases hst
  | mark run i copy result row hrow =>
    obtain ⟨rfl, rfl⟩ := only_eq_some.mp hw
    exact ⟨run, copy, result, rfl, mark_executed (hnot row hrow) hst⟩
  | _ => cases hw

theorem RequestMove.executes {q : RequestId} {pc : RequestPc} {act : RequestAct}
    {eff : Effect RequestPc} (h : RequestMove cfg rows nextId q pc act eff) {new : ReviewDecision}
    (hw : eff.write d = some new) (hst : new.status = .executed)
    (hnot : ∀ row, rows d = some row → row.status ≠ .executed) :
    (∃ copy, pc = .handing d copy) ∨
    ∃ channel copy result, pc = .marking channel d copy result ∧ result.ok = true := by
  cases h with
  | claimWon channel i held row updated hrow hnew | retryWon channel i copy row updated hrow hnew
  | rejectWon channel i held row updated hrow hnew =>
    obtain ⟨rfl, rfl⟩ := only_eq_some.mp hw
    rw [(ReviewDecision.transition_eq_some.mp hnew).2] at hst
    cases hst
  | requeueWon i row updated hrow hnew =>
    obtain ⟨rfl, rfl⟩ := only_eq_some.mp hw
    rw [(ReviewDecision.requeue_eq_some.mp hnew).2] at hst
    cases hst
  | hand i copy row hrow =>
    obtain ⟨rfl, rfl⟩ := only_eq_some.mp hw
    exact .inl ⟨copy, rfl⟩
  | mark channel i copy result row hrow =>
    obtain ⟨rfl, rfl⟩ := only_eq_some.mp hw
    exact .inr ⟨channel, copy, result, rfl, mark_executed (hnot row hrow) hst⟩
  | commit copies =>
    obtain ⟨copy, -, hnew⟩ := Option.bind_eq_some_iff.mp hw
    obtain ⟨row, hrow, rfl⟩ := Option.map_eq_some_iff.mp hnew
    obtain heq | heq := column_eq_or copy.status .failed row.status
    · exact absurd (heq.symm.trans hst) (hnot row hrow)
    · cases heq.symm.trans hst
  | claimLost channel i held => cases held <;> simp [claimNext, afterClaim] at hw
  | load i won row => cases won <;> cases hw
  | _ => cases hw

end

/-- Every post of the row carries the stored comment, and the row is executed after GitHub
has accepted one, or by hand-off. -/
structure Faithful (cfg : Settings) (s : State) (d : DecisionId) : Prop where
  posted : ∀ actor comment ok, .posted actor (some d) comment ok ∈ s.events →
    ∃ row, s.rows d = some row ∧ comment = row.stored
  posting : ∀ r run copy comment, s.routers r = .posting run (some (d, copy)) →
    run.comment cfg.unicode = .ok (some comment) → ∃ row, s.rows d = some row ∧ comment = row.stored
  autoMark : ∀ r run copy result, s.routers r = .marking run d copy result → result.ok = true →
    s.shown d ≠ []
  handing : ∀ q copy, s.requests q = .handing d copy → cfg.handoffMode = true
  mark : ∀ q channel copy result, s.requests q = .marking channel d copy result →
    result.ok = true → s.shown d ≠ []
  executed : ∀ row, s.rows d = some row → row.status = .executed →
    cfg.handoffMode = true ∨ s.shown d ≠ []

section
variable {cfg : Settings} {base : DecisionId} {s t : State} {a : Step} {d : DecisionId}

theorem shown_mono (h : step cfg s a = some t) (hs : s.shown d ≠ []) : t.shown d ≠ [] := by
  obtain ⟨new, hevents, -⟩ := step_bodies (d := d) h
  unfold State.shown at hs ⊢
  rw [hevents, List.filterMap_append]
  exact List.append_ne_nil_of_right_ne_nil _ hs

theorem shown_of_posted {actor : Actor} {comment : Comment} {events : List Event}
    (h : events = [.posted actor (some d) comment true]) (before : List Event) :
    (events ++ before).filterMap (Event.shown d) ≠ [] := by
  subst h
  simp [Event.shown]

theorem stored_persist (hwf : WellFormed cfg s) (h : step cfg s a = some t) {comment : Comment}
    (hrow : ∃ row, s.rows d = some row ∧ comment = row.stored) :
    ∃ row, t.rows d = some row ∧ comment = row.stored := by
  obtain ⟨row, hrow, rfl⟩ := hrow
  obtain ⟨new, hnew, hcontent⟩ := hwf.rows_persist h hrow
  exact ⟨new, hnew, (stored_of_content hcontent).symm⟩

theorem rendersAs_stored {u : Unicode} {run : RouterRun} {row : ReviewDecision} {comment : Comment}
    (h : run.rendersAs u row = true) (hcomment : run.comment u = .ok (some comment)) :
    comment = row.stored := by
  simp only [RouterRun.rendersAs, hcomment] at h
  exact Comment.isStored_eq h

theorem Faithful.step_posted (hs : Faithful cfg s d) (hwf : WellFormed cfg s)
    (h : step cfg s a = some t) (actor : Actor) (comment : Comment) (ok : Bool)
    (he : .posted actor (some d) comment ok ∈ t.events) :
    ∃ row, t.rows d = some row ∧ comment = row.stored := by
  apply stored_persist hwf h
  cases a with
  | router r act =>
    obtain ⟨eff, hmove, rfl⟩ := step_router h
    obtain hnew | hold := List.mem_append.mp he
    · obtain ⟨_, _, -, heq, -⟩ | ⟨_, _, _, heq⟩ | ⟨_, _, _, _, _, -, heq⟩ |
        ⟨run, target, made, _, hpc, hmade, heq⟩ := hmove.event hnew
      · cases heq
      · cases heq
      · cases heq
      · cases target with
        | none => cases heq
        | some found =>
          cases heq
          exact hs.posting r run found.2 comment hpc hmade
    · exact hs.posted actor comment ok hold
  | request q act =>
    obtain ⟨eff, hmove, rfl⟩ := step_request h
    obtain hnew | hold := List.mem_append.mp he
    · obtain hnone | ⟨i, heq⟩ | ⟨channel, i, copy, made, _, hpc, hmade, heq⟩ := hmove.event hnew
      · cases actor with
        | router r => cases hmove.event_router hnew
        | request i => cases hnone
      · cases heq
      · cases heq
        obtain ⟨row, hrow, hcontent⟩ := hwf.requests q (d, copy) (by simp [hpc, RequestPc.copies])
        exact ⟨row, hrow, (copy_comment_stored hmade).trans (stored_of_content hcontent)⟩
    · exact hs.posted actor comment ok hold

theorem Faithful.step_posting (hs : Faithful cfg s d) (hwf : WellFormed cfg s)
    (hok : s.rendersKept cfg d a = true) (h : step cfg s a = some t) (r : RouterId)
    (run : RouterRun) (copy : ReviewDecision) (comment : Comment)
    (hpc : t.routers r = .posting run (some (d, copy)))
    (hcomment : run.comment cfg.unicode = .ok (some comment)) :
    ∃ row, t.rows d = some row ∧ comment = row.stored := by
  obtain hsame | ⟨act, eff, rfl, hmove, rfl⟩ := step_routers h r
  · exact stored_persist hwf h (hs.posting r run copy comment (hsame ▸ hpc) hcomment)
  · rw [applyRouter_self] at hpc
    obtain ⟨key, hselecting, rfl, hfind, hauto, hfailed⟩ | ⟨key, hinserting, rfl, hwrite⟩ :=
      hmove.posting hpc
    · have hrenders : run.rendersAs cfg.unicode copy = true := by
        obtain hpc | hpc := hselecting <;>
          simpa [State.rendersKept, hpc, hfind, hauto, hfailed] using hok
      exact stored_persist hwf h
        ⟨copy, (findDecision_eq_some hfind).1, rendersAs_stored hrenders hcomment⟩
    · have hnew := hwf.inserting r run key copy hinserting
      exact ⟨copy, by simp [hwrite], newDecision_stored hnew hcomment⟩

theorem Faithful.step_autoMark (hs : Faithful cfg s d) (hg : Gated cfg s)
    (h : step cfg s a = some t) (r : RouterId) (run : RouterRun) (copy : ReviewDecision)
    (result : ActionResult) (hpc : t.routers r = .marking run d copy result)
    (hresult : result.ok = true) : t.shown d ≠ [] := by
  obtain hsame | ⟨act, eff, rfl, hmove, rfl⟩ := step_routers h r
  · exact shown_mono h (hs.autoMark r run copy result (hsame ▸ hpc) hresult)
  · rw [applyRouter_self] at hpc
    obtain ⟨hposting, hnothing | ⟨comment, hevents⟩⟩ := hmove.marking hpc
    · exact absurd hnothing (comment_ne_none (hg.run r run (by rw [hposting]; rfl)).2.2)
    · rw [hresult] at hevents
      exact shown_of_posted hevents s.events

theorem Faithful.step_mark (hs : Faithful cfg s d) (hwf : WellFormed cfg s) (hin : InHand base s)
    (hd : base ≤ d) (h : step cfg s a = some t) (q : RequestId) (channel : Channel)
    (copy : ReviewDecision) (result : ActionResult)
    (hpc : t.requests q = .marking channel d copy result) (hresult : result.ok = true) :
    t.shown d ≠ [] := by
  obtain hsame | ⟨act, eff, rfl, hmove, rfl⟩ := step_requests h q
  · exact shown_mono h (hs.mark q channel copy result (hsame ▸ hpc) hresult)
  · rw [applyRequest_self] at hpc
    obtain ⟨_, _, heq, -⟩ | ⟨_, _, _, _, heq, hposting, hsent⟩ := hmove.executing (by rw [hpc]; rfl)
    · cases heq.symm.trans hpc
    · cases heq.symm.trans hpc
      obtain hnothing | ⟨comment, hevents⟩ := hsent
      · obtain ⟨row, hrow, hcontent⟩ :=
          hwf.requests q (d, copy) (by simp [hposting, RequestPc.copies])
        obtain ⟨action, hact, hvalue⟩ := hin.actionable d row hd hrow
        have hsame : copy.action = row.action := congrArg (·.action) hcontent
        obtain ⟨comment, hcomment⟩ := copy_comment_ne_none (u := cfg.unicode) (hsame.trans hvalue) hact
        cases hnothing.symm.trans hcomment
      · rw [hresult] at hevents
        exact shown_of_posted hevents s.events

theorem Faithful.step_executed (hs : Faithful cfg s d) (hwf : WellFormed cfg s)
    (h : step cfg s a = some t) (new : ReviewDecision) (hnew : t.rows d = some new)
    (hst : new.status = .executed) : cfg.handoffMode = true ∨ t.shown d ≠ [] := by
  by_cases hold : ∃ row, s.rows d = some row ∧ row.status = .executed
  · obtain ⟨row, hrow, hexecuted⟩ := hold
    exact (hs.executed row hrow hexecuted).imp_right (shown_mono h)
  · have hnot : ∀ row, s.rows d = some row → row.status ≠ .executed :=
      fun row hrow hexecuted => hold ⟨row, hrow, hexecuted⟩
    cases a with
    | router r act =>
      obtain ⟨eff, hmove, rfl⟩ := step_router h
      cases hw : eff.write d with
      | none => exact absurd hst (hnot new (by simpa [hw] using hnew))
      | some row =>
        obtain rfl : row = new := by simpa [hw] using hnew
        have hpending : ∀ run key row, s.routers r = .inserting run key row → row.status = .pending :=
          fun run key row hpc => (newDecision_key (hwf.inserting r run key row hpc)).2.1
        obtain ⟨run, copy, result, hpc, hok⟩ := hmove.executes hpending hw hst hnot
        exact .inr (shown_mono h (hs.autoMark r run copy result hpc hok))
    | request q act =>
      obtain ⟨eff, hmove, rfl⟩ := step_request h
      cases hw : eff.write d with
      | none => exact absurd hst (hnot new (by simpa [hw] using hnew))
      | some row =>
        obtain rfl : row = new := by simpa [hw] using hnew
        obtain ⟨copy, hpc⟩ | ⟨channel, copy, result, hpc, hok⟩ := hmove.executes hw hst hnot
        · exact .inl (hs.handing q copy hpc)
        · exact .inr (shown_mono h (hs.mark q channel copy result hpc hok))

theorem Faithful.step (hs : Faithful cfg s d) (hwf : WellFormed cfg s) (hg : Gated cfg s)
    (hin : InHand base s) (hd : base ≤ d) (hok : s.rendersKept cfg d a = true)
    (h : step cfg s a = some t) : Faithful cfg t d where
  posted := hs.step_posted hwf h
  posting := hs.step_posting hwf hok h
  autoMark := hs.step_autoMark hg h
  handing q copy hpc := by
    obtain hsame | ⟨act, eff, rfl, hmove, rfl⟩ := step_requests h q
    · exact hs.handing q copy (hsame ▸ hpc)
    · rw [applyRequest_self] at hpc
      obtain ⟨_, _, -, hmode⟩ | ⟨_, _, _, _, heq, -⟩ := hmove.executing (by rw [hpc]; rfl)
      · exact hmode
      · cases heq.symm.trans hpc
  mark := hs.step_mark hwf hin hd h
  executed := hs.step_executed hwf h

theorem Faithful.initial {ledger : Ledger} (hd : ledger.nextId ≤ d) :
    Faithful cfg (State.initial ledger) d where
  posted _ _ _ he := by cases he
  posting _ _ _ _ hpc := by cases hpc
  autoMark _ _ _ _ hpc := by cases hpc
  handing _ _ hpc := by cases hpc
  mark _ _ _ _ hpc := by cases hpc
  executed row hrow := absurd (ledger.rows_lt d row hrow) (Nat.not_lt.mpr hd)

end

theorem Reachable.faithful {cfg : Settings} {ledger : Ledger} {s : State} {d : DecisionId}
    (hd : ledger.nextId ≤ d)
    (h : (reviews cfg ledger).Reachable (fun s a => s.rendersKept cfg d a) s) : Faithful cfg s d :=
  Reachable.invariant (I := fun u => Faithful cfg u d)
    (fun _ hu => And.intro (Reachable.wellFormed hu)
      (And.intro (Reachable.gated hu) (Reachable.inHand hu)))
    (Faithful.initial hd)
    (fun _ _ _ hj hok hstep hs => hs.step hj.1 hj.2.1 hj.2.2 hd hok hstep) h

theorem shown_length (s : State) (d : DecisionId) : (s.shown d).length = s.accepted d := by
  unfold State.shown State.accepted
  rw [List.length_filterMap_eq_countP]
  apply List.countP_congr
  intro e _
  cases e with
  | posted actor target comment ok =>
    cases target with
    | none => simp [Event.shown, Event.acceptedPost]
    | some i =>
      cases ok with
      | true => by_cases hi : i = d <;> simp [Event.shown, Event.acceptedPost, hi]
      | false => simp [Event.shown, Event.acceptedPost]
  | _ => simp [Event.shown, Event.acceptedPost]

theorem mem_shown {s : State} {d : DecisionId} {comment : Comment} (h : comment ∈ s.shown d) :
    ∃ actor, .posted actor (some d) comment true ∈ s.events := by
  obtain ⟨e, he, heq⟩ := List.mem_filterMap.mp h
  cases e with
  | posted actor target made ok =>
    cases target with
    | none => cases heq
    | some i =>
      cases ok with
      | false => cases heq
      | true =>
        simp only [Event.shown, Option.ite_none_right_eq_some, Option.some.injEq] at heq
        obtain ⟨rfl, rfl⟩ := heq
        exact ⟨actor, he⟩
  | _ => cases heq

/-- In every run in which the auto path takes the failed row up only to post its stored
comment, each post of the row carries that comment, and a row is executed when GitHub has
accepted one, or by hand-off. If the gate of the row is kept too, an executed row is
shown on GitHub as exactly one comment, the stored one. -/
theorem posted_is_stored {cfg : Settings} {ledger : Ledger} {s : State} {d : DecisionId}
    (hd : ledger.nextId ≤ d)
    (h : (reviews cfg ledger).Reachable (fun s a => s.rendersKept cfg d a) s) :
    (∀ actor comment ok, .posted actor (some d) comment ok ∈ s.events →
      ∃ row, s.rows d = some row ∧ comment = row.stored) ∧
    (∀ row, s.rows d = some row → row.status = .executed →
      cfg.handoffMode = true ∨ s.shown d ≠ []) ∧
    ((reviews cfg ledger).Reachable (fun s a => s.rendersKept cfg d a ∧ s.gateKept d a) s →
      ∀ row, s.rows d = some row → row.status = .executed →
        (cfg.handoffMode = true ∧ s.shown d = []) ∨ s.shown d = [row.stored]) := by
  have hfaithful := Reachable.faithful hd h
  refine ⟨hfaithful.posted, hfaithful.executed, ?_⟩
  intro hkept row hrow hst
  have hone : (s.shown d).length ≤ 1 := by
    rw [shown_length]
    have hgate := Run.mono hkept fun _ _ hok => hok.2
    exact (Reachable.gateKept hd hgate).accepted_le
  cases hshown : s.shown d with
  | nil => exact .inl ⟨(hfaithful.executed row hrow hst).resolve_right (not_not.mpr hshown), rfl⟩
  | cons comment rest =>
    rw [hshown] at hone
    have hrest : rest = [] := List.eq_nil_of_length_eq_zero (Nat.le_zero.mp (Nat.le_of_succ_le_succ hone))
    have hmem : comment ∈ s.shown d := by
      rw [hshown]
      exact List.mem_cons_self
    obtain ⟨actor, he⟩ := mem_shown hmem
    obtain ⟨stored, hstored, rfl⟩ := hfaithful.posted actor comment true he
    cases hrow.symm.trans hstored
    exact .inr (by rw [hrest])

/-- The refused post of `retryRun` is repeated with the same text, and accepted. -/
def repeatedRun : List Step := retryRun ++ routerRun 1 [.post (.answered posted), .mark]

def repeatedState : State := (reviews .small .empty).after repeatedRun (by decide)

theorem posted_is_stored_repeated :
    ∃ row, repeatedState.rows 0 = some row ∧ row.status = .executed ∧
      ((Settings.small.handoffMode = true ∧ repeatedState.shown 0 = []) ∨
        repeatedState.shown 0 = [row.stored]) :=
  ⟨_, rfl, rfl, (posted_is_stored (Nat.zero_le _) (Reachable.after (by decide) (by decide))).2.2
    (Reachable.after (by decide) (by decide)) _ rfl rfl⟩

def rewrittenRun : List Step :=
  routerRun 0 [.start (.sample "low") true, .select, .insert, .post (.answered refused), .mark] ++
    routerRun 1 [.start { PRState.sample "low" with summary := some (.str "Nice.") } true, .select,
      .post (.answered posted), .mark]

def rewrittenState : State := (reviews .small .empty).after rewrittenRun (by decide)

/-- GitHub shows the second text, and the executed row records the first. -/
theorem rewritten_comment_posted :
    (reviews .small .empty).Reachable anyStep rewrittenState ∧
      ∃ row comment, rewrittenState.rows 0 = some row ∧ row.status = .executed ∧
        rewrittenState.shown 0 = [comment] ∧ comment.body ≠ row.stored.body :=
  ⟨Reachable.after _ (System.Admits.any _ _), _, _, rfl, rfl, rfl, by decide⟩

end AutoPR.Routing
