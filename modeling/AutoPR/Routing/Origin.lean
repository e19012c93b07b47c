import AutoPR.Routing.Identity

/-! Where decisions and comments come from. Every row of the store, and every comment about a
decision that GitHub is given, goes back to the state that some run was started with. -/
namespace AutoPR.Routing
open Python UnitOfWork Transition

structure PRState.Sources (u : Unicode) (state : PRState) (row : ReviewDecision) : Prop where
  repo : state.repo.getD (.str "?") = .str row.repo
  prNumber : (state.prNumber.getD (.int 0)).toInt u = .ok row.prNumber
  commitSha : state.commitSha.getD (.str "?") = .str row.commitSha
  installationId : row.installationId = installationIdFrom u state

/-- The comment goes to the pull request of the state, as a post of a decision or as the notice
of one. -/
inductive PRState.Addresses (u : Unicode) (state : PRState) (comment : Comment) : Prop where
  | post (hrepo : comment.repo = state.repo.getD (.str "?"))
      (hpr : (state.prNumber.getD (.int 0)).toInt u = .ok comment.prNumber)
  | notice (d row) (h : noticeComment u state d row = some comment)

namespace State

def Began (s : State) (state : PRState) : Prop := ∃ r stored, .started r state stored ∈ s.events

end State

/-- The comment of an event that is about a decision. -/
def Event.comment : Event → Option Comment
  | .posted _ _ comment _ | .notified _ _ comment _ => some comment
  | _ => none

/-- Every row, and every comment about a decision, goes back to a run. -/
structure Traced (cfg : Settings) (s : State) : Prop where
  rows : ∀ d row, s.rows d = some row →
    ∃ state, s.Began state ∧ state.Sources cfg.unicode row
  comments : ∀ e comment, e ∈ s.events → e.comment = some comment →
    ∃ state, s.Began state ∧ state.Addresses cfg.unicode comment

section
variable {u : Unicode} {state : PRState} {row : ReviewDecision} {comment : Comment}

theorem newDecision_sources {decision : RoutingDecision} {key : String}
    (h : newDecision u state decision key = .ok row) : state.Sources u row := by
  obtain ⟨hrepo, hpr, -, htenant⟩ := newDecision_address h
  refine ⟨hrepo, hpr, ?_, htenant⟩
  unfold newDecision at h
  rw [hrepo, hpr] at h
  cases hsha : (state.commitSha.getD (.str "?")).asStr with
  | error e =>
    rw [hsha] at h
    cases h
  | ok sha =>
    rw [hsha] at h
    rw [asStr_eq_ok hsha, ← Except.ok.inj h]

theorem PRState.Sources.content {new : ReviewDecision} (h : state.Sources u row)
    (hcontent : new.content = row.content) : state.Sources u new := by
  have hrepo : new.repo = row.repo := congrArg (·.repo) hcontent
  have hpr : new.prNumber = row.prNumber := congrArg (·.prNumber) hcontent
  have hsha : new.commitSha = row.commitSha := congrArg (·.commitSha) hcontent
  have htenant : new.installationId = row.installationId := congrArg (·.installationId) hcontent
  exact ⟨by rw [hrepo, h.repo], by rw [hpr, h.prNumber], by rw [hsha, h.commitSha],
    htenant.trans h.installationId⟩

theorem PRState.Sources.stored (h : state.Sources u row) : state.Addresses u row.stored :=
  .post h.repo.symm h.prNumber

theorem RouterRun.comment_addresses {run : RouterRun} (h : run.comment u = .ok (some comment)) :
    run.state.Addresses u comment := by
  obtain ⟨n, hn, rfl⟩ := executeDecision_comment h
  exact .post rfl hn

end

section
variable {cfg : Settings} {s t : State} {a : Step}

theorem State.Began.mono (h : step cfg s a = some t) {state : PRState} (hs : s.Began state) :
    t.Began state := by
  obtain ⟨r, stored, he⟩ := hs
  exact ⟨r, stored, step_events_mono h he⟩

theorem step_began (h : step cfg s a = some t) {r : RouterId} {state : PRState} {stored : Bool}
    (he : .started r state stored ∈ t.events) :
    .started r state stored ∈ s.events ∨ a = .router r (.start state stored) := by
  cases a with
  | router r' act =>
    obtain ⟨eff, hmove, rfl⟩ := step_router h
    refine (List.mem_append.mp he).symm.imp id fun hnew => ?_
    generalize s.routers r' = pc at hmove
    cases hmove with
    | start state' stored' =>
      cases List.mem_singleton.mp hnew
      rfl
    | insert | notify | requeueWon | post => cases List.mem_singleton.mp hnew
    | mark => cases (markEvents_cases hnew).1
    | _ => cases hnew
  | request q act =>
    obtain ⟨eff, hmove, rfl⟩ := step_request h
    obtain hnew | hold := List.mem_append.mp he
    · cases hmove.event_router hnew
    · exact .inl hold

theorem Traced.step_rows (hs : Traced cfg s) (hwf : WellFormed cfg s) (hg : Gated cfg s)
    (h : step cfg s a = some t) (d : DecisionId) (row : ReviewDecision) (hrow : t.rows d = some row) :
    ∃ state, t.Began state ∧ state.Sources cfg.unicode row := by
  obtain hsame | ⟨-, -, r, run, key, new, -, hpc, -, hnew⟩ | ⟨old, new, hold, hnew, hcontent⟩ :=
    Routing.step_rows h d
  · obtain ⟨state, hbegan, hsources⟩ := hs.rows d row (hsame ▸ hrow)
    exact ⟨state, hbegan.mono h, hsources⟩
  · cases hnew.symm.trans hrow
    obtain ⟨⟨stored, he⟩, -⟩ := hg.run r run (by rw [hpc]; rfl)
    exact ⟨run.state, ⟨r, stored, step_events_mono h he⟩,
      newDecision_sources (hwf.inserting r run key row hpc)⟩
  · cases hnew.symm.trans hrow
    obtain ⟨state, hbegan, hsources⟩ := hs.rows d old hold
    exact ⟨state, hbegan.mono h, hsources.content hcontent⟩

theorem Traced.step_comments (hs : Traced cfg s) (hwf : WellFormed cfg s) (hg : Gated cfg s)
    (h : step cfg s a = some t) (e : Event) (comment : Comment) (he : e ∈ t.events)
    (hcomment : e.comment = some comment) :
    ∃ state, t.Began state ∧ state.Addresses cfg.unicode comment := by
  suffices hbefore : ∃ state, s.Began state ∧ state.Addresses cfg.unicode comment by
    obtain ⟨state, hbegan, haddresses⟩ := hbefore
    exact ⟨state, hbegan.mono h, haddresses⟩
  cases a with
  | router r act =>
    obtain ⟨eff, hmove, rfl⟩ := step_router h
    obtain hnew | hold := List.mem_append.mp he
    · obtain ⟨_, _, -, rfl, -⟩ | ⟨_, _, _, rfl⟩ | ⟨run, d, copy, made, _, hpc, rfl⟩ |
        ⟨run, target, made, _, hpc, hmade, rfl⟩ := hmove.event hnew
      · cases hcomment
      · cases hcomment
      · cases hcomment
        obtain ⟨⟨stored, hstart⟩, -⟩ := hg.run r run (by rw [hpc]; rfl)
        have hallowed := hg.allowed r
        rw [hpc] at hallowed
        exact ⟨run.state, ⟨r, stored, hstart⟩, .notice d copy hallowed.2⟩
      · cases hcomment
        obtain ⟨⟨stored, hstart⟩, -⟩ := hg.run r run (by rw [hpc]; rfl)
        exact ⟨run.state, ⟨r, stored, hstart⟩, RouterRun.comment_addresses hmade⟩
    · exact hs.comments e comment hold hcomment
  | request q act =>
    obtain ⟨eff, hmove, rfl⟩ := step_request h
    obtain hnew | hold := List.mem_append.mp he
    · obtain hnone | ⟨d, rfl⟩ | ⟨channel, d, copy, made, _, hpc, hmade, rfl⟩ := hmove.event hnew
      · cases e with
        | posted actor target made ok =>
          cases actor with
          | router r => cases hmove.event_router hnew
          | request i => cases hnone
        | notified r d made ok => cases hmove.event_router hnew
        | _ => cases hcomment
      · cases hcomment
      · cases hcomment
        obtain ⟨row, hrow, hcontent⟩ := hwf.requests q (d, copy) (by simp [hpc, RequestPc.copies])
        obtain ⟨state, hbegan, hsources⟩ := hs.rows d row hrow
        rw [copy_comment_stored hmade]
        exact ⟨state, hbegan, (hsources.content hcontent).stored⟩
    · exact hs.comments e comment hold hcomment

theorem Traced.initial : Traced cfg (State.initial .empty) where
  rows _ _ h := by cases h
  comments _ _ h := by cases h

theorem Reachable.traced {ok : State → Step → Prop}
    (h : (reviews cfg .empty).Reachable ok s) : Traced cfg s :=
  Reachable.invariant (J := fun u => WellFormed cfg u ∧ Gated cfg u)
    (fun _ hu => ⟨Reachable.wellFormed hu, Reachable.gated hu⟩) Traced.initial
    (fun _ _ _ hj _ hstep hs => ⟨hs.step_rows hj.1 hj.2 hstep, hs.step_comments hj.1 hj.2 hstep⟩) h

end

def RequestPc.onThread : RequestPc → Bool
  | .looking _ _ _ _ _ | .replying _ _ => true
  | .claiming channel _ _ | .retrying channel _ _ | .posting channel _ _ | .marking channel _ _ _
  | .rejecting channel _ _ => channel ≠ .ops
  | _ => false

section
variable {cfg : Settings} {rows : DecisionTable} {nextId : DecisionId} {q : RequestId}

theorem finish_onThread {channel : Channel} {d : DecisionId} {verb : Verb} {outcome : Outcome}
    (h : (channel.finish d verb outcome).onThread = true) : channel ≠ .ops := by
  rintro rfl
  cases h

theorem afterReject_onThread {channel : Channel} (d : DecisionId) {copy : ReviewDecision} {won : Bool}
    (h : (afterReject channel d copy won).onThread = true) : channel ≠ .ops :=
  finish_onThread h

theorem afterClaimed_onThread {channel : Channel} {d : DecisionId} {copy : ReviewDecision}
    (h : (afterClaimed cfg channel d copy).onThread = true) : channel ≠ .ops := by
  obtain ⟨-, heq⟩ | heq := afterClaimed_cases cfg channel d copy <;> rw [heq] at h
  · cases h
  · exact of_decide_eq_true h

theorem afterClaim_onThread {channel : Channel} {d : DecisionId} {copy : ReviewDecision} {won : Bool}
    (h : (afterClaim cfg q channel d copy won).pc.onThread = true) : channel ≠ .ops := by
  cases won with
  | true => exact afterClaimed_onThread h
  | false =>
    replace h : (afterLost channel d copy).onThread = true := h
    obtain ⟨outcome, heq⟩ | ⟨-, heq⟩ := afterLost_cases channel d copy <;> rw [heq] at h
    · exact finish_onThread h
    · exact of_decide_eq_true h

theorem RequestMove.onThread {pc : RequestPc} {act : RequestAct} {eff : Effect RequestPc}
    (h : RequestMove cfg rows nextId q pc act eff) (hthread : eff.pc.onThread = true) :
    pc.onThread = true ∨ ∃ verb repo n i d, act = .begin verb (.comment repo n i) d := by
  cases h with
  | begin verb channel d =>
    cases channel with
    | comment repo n i => exact .inr ⟨verb, repo, n, i, d, rfl⟩
    | ops =>
      replace hthread : (startRequest cfg verb .ops d).onThread = true := hthread
      cases hmode : cfg.publicMode <;> cases verb <;>
        simp [startRequest, hmode, RequestPc.onThread] at hthread
  | lookApprove | lookReject | lookNone => exact .inl rfl
  | claimWon channel d held | claimLost channel d held =>
    cases held with
    | none => cases hthread
    | some copy => exact .inl (decide_eq_true (afterClaim_onThread hthread))
  | load d won row => exact absurd rfl (afterClaim_onThread hthread)
  | retryWon channel d copy => exact .inl (decide_eq_true (afterClaimed_onThread hthread))
  | retryLost channel d copy =>
    replace hthread : (channel.finish d .approve .inProgress).onThread = true := hthread
    exact .inl (decide_eq_true (finish_onThread hthread))
  | post channel d copy outcome =>
    cases outcome with
    | raised => cases hthread
    | answered result => exact .inl hthread
  | postNothing channel d copy => exact .inl hthread
  | mark channel d copy result => exact .inl (decide_eq_true (finish_onThread hthread))
  | rejectWon channel d held | rejectLost channel d held =>
    cases held with
    | none => cases hthread
    | some copy =>
      exact .inl (decide_eq_true (afterReject_onThread d hthread))
  | loadRejected d won row => exact absurd rfl (afterReject_onThread d hthread)
  | reply => exact .inl rfl
  | _ => cases hthread

end

theorem RequestMove.replies {cfg : Settings} {rows : DecisionTable} {nextId : DecisionId}
    {q q' : RequestId} {pc : RequestPc} {act : RequestAct} {eff : Effect RequestPc}
    {comment : Comment} {ok : Bool} (h : RequestMove cfg rows nextId q pc act eff)
    (he : .replied q' comment ok ∈ eff.events) :
    q' = q ∧ ∃ outcome, pc = .replying comment outcome := by
  cases h with
  | reply made outcome =>
    cases List.mem_singleton.mp he
    exact ⟨rfl, outcome, rfl⟩
  | begin | beginRequeue | beginSweep | rejectWon | requeueWon | post =>
    cases List.mem_singleton.mp he
  | claimWon =>
    obtain hclaim | hset := List.mem_append.mp he
    · cases claimNext_events hclaim
    · cases List.mem_singleton.mp hset
  | claimLost => cases claimNext_events he
  | load d won row =>
    cases won with
    | true => cases List.mem_singleton.mp he
    | false => cases he
  | retryWon =>
    obtain hclaim | hset := List.mem_cons.mp he
    · cases hclaim
    · cases List.mem_singleton.mp hset
  | hand | mark => cases (markEvents_cases he).1
  | commit copies =>
    obtain ⟨c, -, hset⟩ := List.mem_map.mp he
    cases hset
  | _ => cases he

end AutoPR.Routing
