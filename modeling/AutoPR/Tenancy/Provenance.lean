import AutoPR.Jobs.Origin
import AutoPR.Routing.Origin
import AutoPR.Tenancy.Suspension

/-! What an instance writes goes back to what it was asked for: each decision and each comment
about one to a job whose handler was started, each other comment to a comment command. -/
namespace AutoPR.Tenancy
open Python Transition

namespace Instance

/-- The handler of a job about this has been started. -/
def Handled (s : Instance) (job : Jobs.Origin) : Prop :=
  ∃ j entry row, .started j entry ∈ s.jobs.events ∧ s.jobs.jobs j = some row ∧ row.origin = job

/-- The request is a comment command of an installation that has enrolled. -/
def Commanded (s : Instance) (q : Routing.RequestId) : Prop :=
  ∃ i, s.threads q = some i ∧ (s.tenants.get i).isSome = true

/-- Every run was started by the handler of a job, and every request on a thread by a comment
command. -/
structure Asked (s : Instance) : Prop where
  runs : ∀ state, s.reviews.Began state → ∃ job added, s.Handled job.origin ∧ state = jobState job added
  threads : ∀ q, (s.reviews.requests q).onThread = true → s.Commanded q
  replies : ∀ q comment ok, .replied q comment ok ∈ s.reviews.events → s.Commanded q

end Instance

section
variable {u : Unicode} {job : Jobs.PRJob} {added : Routing.PRState} {comment : Routing.Comment}

theorem jobState_installation :
    Routing.installationIdFrom u (jobState job added) = job.installationId.filter (0 < ·) := by
  cases htenant : job.installationId with
  | none => simp [Routing.installationIdFrom, jobState, htenant]
  | some i => simp [Routing.installationIdFrom, jobState, htenant, Option.filter]

theorem jobState_addresses (h : (jobState job added).Addresses u comment) :
    comment.repo = .str job.repo ∧ comment.prNumber = job.prNumber := by
  cases h with
  | post hrepo hpr => exact ⟨hrepo, (Except.ok.inj hpr).symm⟩
  | notice d row h =>
    have hrepo : ((PyVal.str job.repo).or (.str "")).toStr u = job.repo := by
      by_cases hempty : job.repo = "" <;> simp [PyVal.or, PyVal.truthy, hempty, PyVal.toStr]
    have hpr : (PyVal.int job.prNumber).toInt u = .ok job.prNumber := rfl
    simp only [Routing.noticeComment, jobState, Option.getD_some, hrepo, hpr,
      Option.ite_none_left_eq_some, Option.some.injEq] at h
    rw [← h.2]
    exact ⟨rfl, rfl⟩

end

section
variable {cfg : InstanceSettings} {s t : Instance} {a : InstanceAct}

theorem Instance.Handled.mono (hjobs : Jobs.WellFormed s.jobs) (h : s.Move cfg a t)
    {job : Jobs.Origin} (hs : s.Handled job) : t.Handled job := by
  obtain ⟨j, entry, row, he, hrow, horigin⟩ := hs
  obtain hsame | ⟨b, hb⟩ := h.jobs_step
  · exact ⟨j, entry, row, hsame ▸ he, hsame ▸ hrow, horigin⟩
  · obtain ⟨new, hnew, hkept⟩ := Jobs.origin_persist hjobs hb hrow
    exact ⟨j, entry, new, Jobs.step_events_mono hb he, hnew, hkept.trans horigin⟩

theorem Instance.Move.began (h : s.Move cfg a t) (hsourced : Jobs.Sourced s.jobs)
    {state : Routing.PRState} (hbegan : t.reviews.Began state) :
    s.reviews.Began state ∨ ∃ job added, s.Handled job.origin ∧ state = jobState job added := by
  obtain ⟨r, stored, he⟩ := hbegan
  cases h with
  | run w r' added msg job stamp reviews hpc hstep =>
    obtain hold | heq := Routing.step_began hstep he
    · exact .inl ⟨r, stored, hold⟩
    · cases heq
      obtain ⟨row, hrow, horigin⟩ := hsourced.copies w msg job (by rw [hpc]; rfl) (by rw [hpc]; rfl)
      have hstarted := hsourced.started w msg job stamp hpc
      exact .inr ⟨job, added, ⟨msg.jobId, msg.id, row, hstarted, hrow, horigin⟩, rfl⟩
  | command q verb repo n installation d reviews hactive hstep =>
    obtain hold | heq := Routing.step_began hstep he
    · exact .inl ⟨r, stored, hold⟩
    · cases heq
  | reviews b reviews hown hstep =>
    obtain hold | rfl := Routing.step_began hstep he
    · exact .inl ⟨r, stored, hold⟩
    · cases hown
  | _ => exact .inl ⟨r, stored, he⟩

theorem active_enrolled {t : Installations} {i : Int} (h : (t.getActive i).isSome = true) :
    (t.get i).isSome = true := by
  unfold Installations.getActive at h
  cases hrow : t.get i with
  | none =>
    rw [hrow] at h
    cases h
  | some row => rfl

theorem hear_known {standing : Standing} (h : standing ≠ .unknown) (signal : Signal) :
    standing.hear signal ≠ .unknown := by
  cases standing <;> cases signal <;> simp_all [Standing.hear]

theorem receive_enrolled {u : Unicode} {t : Installations} {e : Delivery} {i : Int}
    (h : (t.get i).isSome = true) : ((t.receive u e).get i).isSome = true := by
  by_cases htenant : e.tenant u = some i
  · obtain ⟨found, hfound, hget⟩ := receive_row (t := t) htenant
    rw [hget, if_pos rfl]
    cases found with
    | some row => rfl
    | none =>
      have hknown : Standing.of (t.get i) ≠ .unknown := by
        intro hunknown
        rw [(Standing.of_unknown _).mp hunknown] at h
        cases h
      rw [(Standing.of_unknown _).mpr rfl] at hfound
      split at hfound
      · exact absurd hfound.symm (hear_known hknown _)
      · exact absurd hfound.symm hknown
  · rwa [receive_other htenant]

theorem Instance.Move.enrolled (h : s.Move cfg a t) {i : Int}
    (hs : (s.tenants.get i).isSome = true) : (t.tenants.get i).isSome = true := by
  cases h with
  | deliver | ingest => exact receive_enrolled hs
  | _ => exact hs

theorem Instance.Move.commanded (h : s.Move cfg a t) {q : Routing.RequestId} (hs : s.Commanded q) :
    t.Commanded q := by
  obtain ⟨i, hthread, hrow⟩ := hs
  have hrow' := h.enrolled hrow
  cases h with
  | command q' verb repo n installation d reviews hactive =>
    by_cases hq : q = q'
    · subst hq
      exact ⟨installation, Function.update_self .., active_enrolled hactive⟩
    · exact ⟨i, (Function.update_of_ne hq ..).trans hthread, hrow'⟩
  | _ => exact ⟨i, hthread, hrow'⟩

theorem Instance.Move.onThread (h : s.Move cfg a t) {q : Routing.RequestId}
    (hthread : (t.reviews.requests q).onThread = true) :
    (s.reviews.requests q).onThread = true ∨ t.Commanded q := by
  cases h with
  | run w r added msg job stamp reviews hpc hstep =>
    obtain hsame | ⟨act, eff, heq, -⟩ := Routing.step_requests hstep q
    · exact .inl (hsame ▸ hthread)
    · cases heq
  | command q' verb repo n installation d reviews hactive hstep =>
    obtain hsame | ⟨act, eff, heq, -⟩ := Routing.step_requests hstep q
    · exact .inl (hsame ▸ hthread)
    · cases heq
      exact .inr ⟨installation, Function.update_self .., active_enrolled hactive⟩
  | reviews b reviews hown hstep =>
    obtain hsame | ⟨act, eff, rfl, hmove, rfl⟩ := Routing.step_requests hstep q
    · exact .inl (hsame ▸ hthread)
    · rw [Routing.applyRequest_self] at hthread
      obtain hold | ⟨verb, repo, n, i, d, rfl⟩ := hmove.onThread hthread
      · exact .inl hold
      · cases hown
  | _ => exact .inl hthread

theorem step_reply {b : Routing.Step} {u v : Routing.State} {q : Routing.RequestId}
    {comment : Routing.Comment} {ok : Bool} (h : Routing.step cfg.reviews u b = some v)
    (he : .replied q comment ok ∈ v.events) :
    .replied q comment ok ∈ u.events ∨ (u.requests q).onThread = true := by
  cases b with
  | router r act =>
    obtain ⟨eff, hmove, rfl⟩ := Routing.step_router h
    obtain hnew | hold := List.mem_append.mp he
    · obtain ⟨_, _, -, heq, -⟩ | ⟨_, _, _, heq⟩ | ⟨_, _, _, _, _, -, heq⟩ | ⟨_, _, _, _, -, -, heq⟩ :=
        hmove.event hnew <;> cases heq
    · exact .inl hold
  | request q' act =>
    obtain ⟨eff, hmove, rfl⟩ := Routing.step_request h
    obtain hnew | hold := List.mem_append.mp he
    · obtain ⟨rfl, outcome, hpc⟩ := hmove.replies hnew
      exact .inr (by rw [hpc]; rfl)
    · exact .inl hold

theorem Instance.Asked.step (hs : s.Asked) (hjobs : Jobs.WellFormed s.jobs)
    (hsourced : Jobs.Sourced s.jobs) (h : s.Move cfg a t) : t.Asked where
  runs state hbegan := by
    obtain hold | ⟨job, added, hhandled, heq⟩ := h.began hsourced hbegan
    · obtain ⟨job, added, hhandled, heq⟩ := hs.runs state hold
      exact ⟨job, added, hhandled.mono hjobs h, heq⟩
    · exact ⟨job, added, hhandled.mono hjobs h, heq⟩
  threads q hthread := by
    obtain hold | hnew := h.onThread hthread
    · exact h.commanded (hs.threads q hold)
    · exact hnew
  replies q comment ok he := by
    apply h.commanded
    obtain hsame | ⟨b, hb⟩ := h.reviews_step
    · exact hs.replies q comment ok (hsame ▸ he)
    · obtain hold | hthread := step_reply hb he
      · exact hs.replies q comment ok hold
      · exact hs.threads q hthread

theorem Instance.Asked.initial (integers : IntegerColumn) :
    (Instance.initial integers).Asked where
  runs state h := by
    obtain ⟨r, stored, he⟩ := h
    cases he
  threads q h := by cases h
  replies q comment ok h := by cases h

theorem Reachable.asked {ok : Instance → InstanceAct → Prop}
    (h : (instances cfg).Reachable ok s) : s.Asked :=
  Reachable.invariant (J := fun u => Jobs.WellFormed u.jobs ∧ Jobs.Sourced u.jobs)
    (fun _ hu => ⟨Jobs.Reachable.wellFormed (Reachable.pipeline hu),
      Jobs.Reachable.sourced (Reachable.pipeline hu)⟩)
    (Instance.Asked.initial _)
    (fun _ _ _ hj _ hstep hs => hs.step hj.1 hj.2 (instance_move hstep)) h

/-- In every reachable state of an instance, each decision names the repository, the pull request,
the commit and the tenant (if its id is positive) of a job whose handler was started, each post of
a decision and each notice goes to the pull request of such a job, and each reply answers a comment
command of an installation that has a row. -/
theorem work_traced {ok : Instance → InstanceAct → Prop} (h : (instances cfg).Reachable ok s) :
    (∀ d row, s.reviews.rows d = some row → ∃ job, s.Handled job ∧ row.repo = job.repo ∧
      row.prNumber = job.prNumber ∧ row.commitSha = job.commitSha ∧
      row.installationId = job.installationId.filter (0 < ·)) ∧
    (∀ e comment, e ∈ s.reviews.events → e.comment = some comment → ∃ job, s.Handled job ∧
      comment.repo = .str job.repo ∧ comment.prNumber = job.prNumber) ∧
    ∀ q comment ok, .replied q comment ok ∈ s.reviews.events →
      ∃ i, s.threads q = some i ∧ (s.tenants.get i).isSome = true := by
  have hasked := Reachable.asked h
  have htraced := Routing.Reachable.traced (Reachable.store h)
  refine ⟨?_, ?_, ?_⟩
  · intro d row hrow
    obtain ⟨state, hbegan, hsources⟩ := htraced.rows d row hrow
    obtain ⟨job, added, hhandled, rfl⟩ := hasked.runs state hbegan
    refine ⟨job.origin, hhandled, ?_, ?_, ?_, ?_⟩
    · exact (PyVal.str.inj hsources.repo).symm
    · exact (Except.ok.inj hsources.prNumber).symm
    · exact (PyVal.str.inj hsources.commitSha).symm
    · exact hsources.installationId.trans jobState_installation
  · intro e comment he hcomment
    obtain ⟨state, hbegan, haddresses⟩ := htraced.comments e comment he hcomment
    obtain ⟨job, added, hhandled, rfl⟩ := hasked.runs state hbegan
    exact ⟨job.origin, hhandled, jobState_addresses haddresses⟩
  · exact hasked.replies

end

/-- The handler of the delivery has stored a decision of its own and posted it. -/
def reviewedWork : List InstanceAct :=
  queuedWork ++ [claimAct, .run 0 0 (.sample "low")] ++
    (Routing.routerRun 0 [.select, .insert, .post (.answered Routing.posted)]).map .reviews

def reviewedInstance : Instance := (instances .small).after reviewedWork (by decide)

theorem work_traced_reviewed :
    ∃ job, reviewedInstance.Handled job ∧
      ((reviewedInstance.reviews.rows 0).get (by decide)).repo = job.repo ∧
      job.installationId = some 5 := by
  have hreach : (instances .small).Reachable anyStep reviewedInstance :=
    Reachable.after _ (System.Admits.any _ _)
  obtain ⟨job, hhandled, hrepo, -, -, htenant⟩ := (work_traced hreach).1 0 _ (Option.some_get _).symm
  refine ⟨job, hhandled, hrepo, ?_⟩
  have hfive : job.installationId.filter (0 < ·) = some 5 := htenant.symm.trans (by decide)
  exact (Option.filter_eq_some_iff.mp hfive).1

end AutoPR.Tenancy
