import AutoPR.Routing.Channels
import AutoPR.Routing.Stored

/-! A tenant without work in the decision store: its rows are final, no run is under way
for it, and no actor holds a row of it. -/
namespace AutoPR.Routing
open Python UnitOfWork Transition

def PRState.serves (u : Unicode) (state : PRState) (i : Int) : Prop :=
  state.installationId = some (.int i) ∨ installationIdFrom u state = some i

structure NoWork (u : Unicode) (i : Int) (s : State) : Prop where
  rows : ∀ d row, s.rows d = some row → row.installationId = some i → row.status.final = true
  runs : ∀ r run, (s.routers r).run = some run → ¬ run.state.serves u i
  held : ∀ r, ∀ c ∈ (s.routers r).copies, c.2.installationId ≠ some i
  copies : ∀ q, ∀ c ∈ (s.requests q).copies, c.2.installationId ≠ some i
  loading : ∀ q d row, s.requests q = .loading d true → s.rows d = some row →
    row.installationId ≠ some i
  looking : ∀ q verb repo n d, s.requests q ≠ .looking verb repo n i d

section
variable {cfg : Settings} {rows : DecisionTable} {nextId : DecisionId}

def RequestPc.unread : RequestPc → Bool
  | .looking _ _ _ _ _ | .loading _ true => true
  | _ => false

theorem finish_unread (channel : Channel) (i : DecisionId) (verb : Verb) (outcome : Outcome) :
    (channel.finish i verb outcome).unread = false := by
  obtain heq | ⟨comment, heq⟩ := finish_cases channel i verb outcome <;> rw [heq] <;> rfl

theorem afterClaimed_unread (channel : Channel) (i : DecisionId) (copy : ReviewDecision) :
    (afterClaimed cfg channel i copy).unread = false := by
  obtain ⟨-, heq⟩ | heq := afterClaimed_cases cfg channel i copy <;> rw [heq] <;> rfl

theorem afterClaim_unread {q : RequestId} (channel : Channel) (i : DecisionId) (copy : ReviewDecision)
    (won : Bool) : (afterClaim cfg q channel i copy won).pc.unread = false := by
  cases won with
  | true => exact afterClaimed_unread channel i copy
  | false =>
    show (afterLost channel i copy).unread = false
    obtain ⟨outcome, heq⟩ | ⟨-, heq⟩ := afterLost_cases channel i copy <;> rw [heq]
    · exact finish_unread ..
    · rfl

theorem RequestMove.unread {q : RequestId} {pc : RequestPc} {act : RequestAct}
    {eff : Effect RequestPc} (h : RequestMove cfg rows nextId q pc act eff)
    (hu : eff.pc.unread = true) :
    (∃ verb channel i, act = .begin verb channel i ∧ eff.pc = startRequest cfg verb channel i) ∨
    ∃ i row, eff.pc = .loading i true ∧ rows i = some row ∧ row.status.final = false := by
  cases h with
  | begin verb channel i => exact .inl ⟨verb, channel, i, rfl, rfl⟩
  | claimWon channel i held row updated hrow hnew =>
    cases held with
    | none =>
      refine .inr ⟨i, row, rfl, hrow, ?_⟩
      rw [(ReviewDecision.transition_eq_some.mp hnew).1]
      rfl
    | some copy =>
      rw [show (claimNext cfg q channel i (some copy) true).pc.unread = false from
        afterClaim_unread channel i _ true] at hu
      cases hu
  | claimLost channel i held =>
    cases held with
    | none => cases hu
    | some copy =>
      rw [show (claimNext cfg q channel i (some copy) false).pc.unread = false from
        afterClaim_unread channel i _ false] at hu
      cases hu
  | load i won row =>
    rw [afterClaim_unread] at hu
    cases hu
  | retryWon channel i copy =>
    rw [afterClaimed_unread] at hu
    cases hu
  | lookNone | retryLost =>
    rw [finish_unread] at hu
    cases hu
  | mark channel i copy result =>
    rw [afterMark, finish_unread] at hu
    cases hu
  | rejectWon channel i held | rejectLost channel i held =>
    cases held with
    | none => cases hu
    | some copy =>
      rw [rejectNext, afterReject, finish_unread] at hu
      cases hu
  | loadRejected i won row =>
    rw [afterReject, finish_unread] at hu
    cases hu
  | post channel i copy outcome comment => cases outcome <;> cases hu
  | reply comment outcome result => cases result <;> cases hu
  | _ => cases hu

def RequestPc.ended : RequestPc → Bool
  | .answered _ | .raised | .crashed => true
  | _ => false

theorem RequestMove.ended {q : RequestId} {pc : RequestPc} {act : RequestAct}
    {eff : Effect RequestPc} (h : RequestMove cfg rows nextId q pc act eff) (hended : pc.ended = true) :
    eff.pc.ended = true := by
  cases h with
  | dbError | crash => rfl
  | _ => cases hended

theorem RequestMove.replied {q q' : RequestId} {pc : RequestPc} {act : RequestAct}
    {eff : Effect RequestPc} {comment : Comment} {ok : Bool}
    (h : RequestMove cfg rows nextId q pc act eff) (he : .replied q' comment ok ∈ eff.events) :
    q' = q ∧ pc.ended = false := by
  cases h with
  | reply =>
    cases List.mem_singleton.mp he
    exact ⟨rfl, rfl⟩
  | begin | beginRequeue | beginSweep | rejectWon | requeueWon | post =>
    cases List.mem_singleton.mp he
  | claimWon =>
    obtain hclaim | hset := List.mem_append.mp he
    · cases claimNext_events hclaim
    · cases List.mem_singleton.mp hset
  | claimLost => cases claimNext_events he
  | load d won row =>
    cases won with
    | true => cases List.mem_singleton.mp he
    | false => cases he
  | retryWon =>
    obtain hclaim | hset := List.mem_cons.mp he
    · cases hclaim
    · cases List.mem_singleton.mp hset
  | hand | mark => cases (markEvents_cases he).1
  | commit copies =>
    obtain ⟨c, -, hset⟩ := List.mem_map.mp he
    cases hset
  | _ => cases he

end

/-- The calls of `post_issue_comment` for a decision. -/
def Event.about : Event → Option (Actor × Option DecisionId)
  | .posted actor d _ _ => some (actor, d)
  | .notified r d _ _ => some (.router r, some d)
  | _ => none

theorem NoWork.initial (u : Unicode) (i : Int) : NoWork u i (State.initial .empty) where
  rows _ _ h := by cases h
  runs _ _ h := by cases h
  held _ _ h := by cases h
  copies _ _ h := by cases h
  loading _ _ _ h := by cases h
  looking _ _ _ _ _ h := by cases h

section
variable {cfg : Settings} {s t : State} {a : Step} {i : Int}

theorem Loaded.tenant {rows : DecisionTable} {c : DecisionId × ReviewDecision} (h : Loaded rows c)
    {row : ReviewDecision} (hrow : rows c.1 = some row) : c.2.installationId = row.installationId := by
  obtain ⟨row', hrow', hcontent⟩ := h
  cases hrow'.symm.trans hrow
  exact congrArg (·.installationId) hcontent

theorem NoWork.fresh (hs : NoWork cfg.unicode i s) (hwf : WellFormed cfg s) {r : RouterId}
    {run : RouterRun} {key : String} {row : ReviewDecision}
    (hpc : s.routers r = .inserting run key row) : row.installationId ≠ some i := by
  intro hi
  obtain ⟨-, -, -, htenant⟩ := newDecision_address (hwf.inserting r run key row hpc)
  exact hs.runs r run (by rw [hpc]; rfl) (.inr (htenant.symm.trans hi))

theorem NoWork.row_before (hs : NoWork cfg.unicode i s) (hwf : WellFormed cfg s)
    (h : step cfg s a = some t) {d : DecisionId} {new : ReviewDecision} (hnew : t.rows d = some new)
    (hi : new.installationId = some i) :
    ∃ row, s.rows d = some row ∧ row.installationId = some i := by
  obtain hsame | ⟨-, -, r, run, key, row, -, hpc, -, hrow⟩ | ⟨row, new', hrow, hnew', hcontent⟩ :=
    step_rows h d
  · exact ⟨new, hsame ▸ hnew, hi⟩
  · cases hrow.symm.trans hnew
    exact absurd hi (hs.fresh hwf hpc)
  · cases hnew'.symm.trans hnew
    exact ⟨row, hrow, (congrArg (·.installationId) hcontent).symm.trans hi⟩

theorem NoWork.step_rows (hs : NoWork cfg.unicode i s) (hwf : WellFormed cfg s)
    (h : step cfg s a = some t) (d : DecisionId) (new : ReviewDecision) (hnew : t.rows d = some new)
    (hi : new.installationId = some i) : new.status.final = true := by
  obtain ⟨row, hrow, htenant⟩ := hs.row_before hwf h hnew hi
  have hfinal := hs.rows d row hrow htenant
  cases a with
  | router r act =>
    obtain ⟨eff, hmove, rfl⟩ := step_router h
    rw [applyRouter_rows, hrow] at hnew
    cases hw : eff.write d with
    | none =>
      rw [hw] at hnew
      cases hnew
      exact hfinal
    | some written =>
      rw [hw] at hnew
      cases hnew
      obtain ⟨-, -, -, run, key, hpc, -⟩ | ⟨-, row', hrow', -, hopen | ⟨copy, hcopy⟩⟩ :=
        hmove.write hw
      · exact absurd hi (hs.fresh hwf hpc)
      · cases hrow'.symm.trans hrow
        cases hopen.symm.trans hfinal
      · have hcopied := (hwf.routers r _ hcopy).tenant hrow
        exact absurd (hcopied.trans htenant) (hs.held r _ hcopy)
  | request q act =>
    obtain ⟨eff, hmove, rfl⟩ := step_request h
    rw [applyRequest_rows, hrow] at hnew
    cases hw : eff.write d with
    | none =>
      rw [hw] at hnew
      cases hnew
      exact hfinal
    | some written =>
      rw [hw] at hnew
      cases hnew
      obtain ⟨row', hrow', -, hopen | ⟨copy, hcopy⟩⟩ := hmove.write hw
      · cases hrow'.symm.trans hrow
        cases hopen.symm.trans hfinal
      · have hcopied := (hwf.requests q _ hcopy).tenant hrow
        exact absurd (hcopied.trans htenant) (hs.copies q _ hcopy)

theorem NoWork.step_held (hs : NoWork cfg.unicode i s) (hwf : WellFormed cfg s)
    (h : step cfg s a = some t) (r : RouterId) (c : DecisionId × ReviewDecision)
    (hc : c ∈ (t.routers r).copies) : c.2.installationId ≠ some i := by
  obtain hsame | ⟨act, eff, rfl, hmove, rfl⟩ := step_routers h r
  · exact hs.held r c (hsame ▸ hc)
  · rw [applyRouter_self] at hc
    obtain hold | ⟨hrow, hopen⟩ | ⟨run, key, hpc, -⟩ := hmove.takes hc
    · exact hs.held r c hold
    · intro hi
      cases hopen.symm.trans (hs.rows c.1 c.2 hrow hi)
    · exact hs.fresh hwf hpc

theorem NoWork.step_copies (hs : NoWork cfg.unicode i s) (h : step cfg s a = some t) (q : RequestId)
    (c : DecisionId × ReviewDecision) (hc : c ∈ (t.requests q).copies) :
    c.2.installationId ≠ some i := by
  obtain hsame | ⟨act, eff, rfl, hmove, rfl⟩ := step_requests h q
  · exact hs.copies q c (hsame ▸ hc)
  · rw [applyRequest_self] at hc
    intro hi
    obtain ⟨c', hc', -, hcontent⟩ | ⟨hrow, hopen | hloading | ⟨verb, repo, n, j, d, hpc, hj⟩⟩ :=
      hmove.takes hc
    · exact hs.copies q c' hc' ((congrArg (·.installationId) hcontent).symm.trans hi)
    · cases hopen.symm.trans (hs.rows c.1 c.2 hrow hi)
    · exact hs.loading q c.1 c.2 hloading hrow hi
    · cases hj.symm.trans hi
      exact hs.looking q verb repo n d hpc

theorem NoWork.step_loading (hs : NoWork cfg.unicode i s) (hwf : WellFormed cfg s)
    (h : step cfg s a = some t) (q : RequestId) (d : DecisionId) (new : ReviewDecision)
    (hpc : t.requests q = .loading d true) (hnew : t.rows d = some new) :
    new.installationId ≠ some i := by
  intro hi
  obtain ⟨row, hrow, htenant⟩ := hs.row_before hwf h hnew hi
  obtain hsame | ⟨act, eff, rfl, hmove, rfl⟩ := step_requests h q
  · exact hs.loading q d row (hsame ▸ hpc) hrow htenant
  · rw [applyRequest_self] at hpc
    obtain ⟨verb, channel, j, -, hstart⟩ | ⟨j, row', hload, hrow', hopen⟩ :=
      hmove.unread (by rw [hpc]; rfl)
    · obtain ⟨outcome, heq⟩ | heq | heq | ⟨repo, n, installation, heq⟩ :=
        startRequest_cases cfg verb channel j <;> cases (hpc.symm.trans hstart).trans heq
    · cases hload.symm.trans hpc
      cases hrow'.symm.trans hrow
      cases hopen.symm.trans (hs.rows d row hrow htenant)

theorem NoWork.step_looking (hs : NoWork cfg.unicode i s) (h : step cfg s a = some t)
    (hgate : ∀ q verb repo n d, a ≠ .request q (.begin verb (.comment repo n i) d)) (q : RequestId)
    (verb : Verb) (repo : String) (n : Int) (d : DecisionId) :
    t.requests q ≠ .looking verb repo n i d := by
  intro hpc
  obtain hsame | ⟨act, eff, rfl, hmove, rfl⟩ := step_requests h q
  · exact hs.looking q verb repo n d (hsame ▸ hpc)
  · rw [applyRequest_self] at hpc
    obtain ⟨verb', channel, j, rfl, hstart⟩ | ⟨j, row, hload, -⟩ := hmove.unread (by rw [hpc]; rfl)
    · cases channel with
      | comment repo' n' i' =>
        cases hstart.symm.trans hpc
        exact hgate q verb repo n d rfl
      | ops =>
        rw [hpc] at hstart
        unfold startRequest at hstart
        cases hpublic : cfg.publicMode <;> cases verb' <;> simp [hpublic] at hstart
    · cases hload.symm.trans hpc

theorem NoWork.no_comment (hs : NoWork cfg.unicode i s) (hwf : WellFormed cfg s)
    (h : step cfg s a = some t) {new : List Event} (hnew : t.events = new ++ s.events) {e : Event}
    (he : e ∈ new) {actor : Actor} {d : DecisionId} (habout : e.about = some (actor, some d))
    {row : ReviewDecision} (hrow : s.rows d = some row) : row.installationId ≠ some i := by
  cases a with
  | router r act =>
    obtain ⟨eff, hmove, rfl⟩ := step_router h
    rw [applyRouter_events, List.append_cancel_right_eq] at hnew
    rw [← hnew] at he
    obtain ⟨state, stored, -, rfl, -⟩ | ⟨j, status, setter, rfl⟩ |
      ⟨run, j, copy, comment, ok, hpc, rfl⟩ | ⟨run, target, comment, ok, hpc, -, rfl⟩ :=
      hmove.event he
    · cases habout
    · cases habout
    · cases habout
      have hmem : (d, copy) ∈ (s.routers r).copies := by simp [hpc, RouterPc.copies]
      rw [← (hwf.routers r _ hmem).tenant hrow]
      exact hs.held r _ hmem
    · simp only [Event.about, Option.some.injEq, Prod.mk.injEq, Option.map_eq_some_iff] at habout
      obtain ⟨-, ⟨j, copy⟩, rfl, rfl⟩ := habout
      have hmem : (j, copy) ∈ (s.routers r).copies := by simp [hpc, RouterPc.copies]
      rw [← (hwf.routers r _ hmem).tenant hrow]
      exact hs.held r _ hmem
  | request q act =>
    obtain ⟨eff, hmove, rfl⟩ := step_request h
    rw [applyRequest_events, List.append_cancel_right_eq] at hnew
    rw [← hnew] at he
    obtain hnone | ⟨j, rfl⟩ | ⟨channel, j, copy, comment, ok, hpc, -, rfl⟩ := hmove.event he
    · have hquiet := hmove.event_router he
      cases e with
      | posted actor' j comment ok =>
        cases actor' with
        | router r => cases hquiet
        | request q' => cases hnone
      | notified r j comment ok => cases hquiet
      | _ => cases habout
    · cases habout
    · cases habout
      have hmem : (d, copy) ∈ (s.requests q).copies := by simp [hpc, RequestPc.copies]
      rw [← (hwf.requests q _ hmem).tenant hrow]
      exact hs.copies q _ hmem

theorem step_ended (h : step cfg s a = some t) {q : RequestId}
    (hended : (s.requests q).ended = true) : (t.requests q).ended = true := by
  obtain hsame | ⟨act, eff, rfl, hmove, rfl⟩ := step_requests h q
  · rw [hsame]
    exact hended
  · rw [applyRequest_self]
    exact hmove.ended hended

theorem step_replied (h : step cfg s a = some t) {new : List Event}
    (hnew : t.events = new ++ s.events) {q : RequestId} {comment : Comment} {ok : Bool}
    (he : .replied q comment ok ∈ new) : (s.requests q).ended = false := by
  cases a with
  | router r act =>
    obtain ⟨eff, hmove, rfl⟩ := step_router h
    rw [applyRouter_events, List.append_cancel_right_eq] at hnew
    rw [← hnew] at he
    obtain ⟨_, _, -, heq, -⟩ | ⟨_, _, _, heq⟩ | ⟨_, _, _, _, _, -, heq⟩ | ⟨_, _, _, _, -, -, heq⟩ :=
      hmove.event he <;> cases heq
  | request q' act =>
    obtain ⟨eff, hmove, rfl⟩ := step_request h
    rw [applyRequest_events, List.append_cancel_right_eq] at hnew
    rw [← hnew] at he
    obtain ⟨rfl, hpc⟩ := hmove.replied he
    exact hpc

theorem NoWork.step (hs : NoWork cfg.unicode i s) (hwf : WellFormed cfg s)
    (h : step cfg s a = some t)
    (hstart : ∀ r state stored, a = .router r (.start state stored) → ¬ state.serves cfg.unicode i)
    (hgate : ∀ q verb repo n d, a ≠ .request q (.begin verb (.comment repo n i) d)) :
    NoWork cfg.unicode i t where
  rows := hs.step_rows hwf h
  runs r run hrun := by
    obtain hsame | ⟨act, eff, rfl, hmove, rfl⟩ := step_routers h r
    · exact hs.runs r run (hsame ▸ hrun)
    · rw [applyRouter_self] at hrun
      obtain hold | ⟨stored, rfl, -⟩ := hmove.run hrun
      · exact hs.runs r run hold
      · exact hstart r run.state stored rfl
  held := hs.step_held hwf h
  copies := hs.step_copies h
  loading := hs.step_loading hwf h
  looking := hs.step_looking h hgate

end

end AutoPR.Routing
