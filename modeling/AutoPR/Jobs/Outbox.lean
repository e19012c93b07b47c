import AutoPR.Jobs.Publication

/-! The outbox. A row leaves PENDING in a commit of its own before the entry is
added, so a call that dies in between leaves a QUEUED row that neither the stream
nor the sweep knows. Where no call dies there, an unfinished row is PENDING or on
the stream whenever the publishers are at rest. -/
namespace AutoPR.Jobs
open UnitOfWork Transition OneShot

/-- An entry was added for the job. -/
def State.onStream (s : State) (j : JobId) : Bool :=
  (List.range s.nextEntry).any fun e => (s.stream e).any (·.message.jobId = j)

/-- Neither returned nor raised nor dead. -/
def PublisherPc.midCall : PublisherPc → Bool
  | .idle | .returned _ _ | .swept _ | .raised | .crashed => false
  | _ => true

/-- No call dies between its claim and the outcome of its publish, unless the job
is on the stream already. -/
def crashOutsideWindow (s : State) : Action → Bool
  | .publisher p .crash =>
      match s.publishers p with
      | .refreshing j _ | .publishing j _ _ | .unclaiming j _ _ => s.onStream j
      | _ => true
  | _ => true

theorem onStream_iff {s : State} (hwf : WellFormed s) {j : JobId} :
    s.onStream j = true ↔ ∃ e entry, s.stream e = some entry ∧ entry.message.jobId = j := by
  simp only [State.onStream, List.any_eq_true, List.mem_range, Option.any_eq_true,
    decide_eq_true_eq]
  constructor
  · rintro ⟨e, -, entry, hentry, hj⟩
    exact ⟨e, entry, hentry, hj⟩
  · rintro ⟨e, entry, hentry, hj⟩
    exact ⟨e, hwf.stream_lt e entry hentry, entry, hentry, hj⟩

theorem onStream_persist {cfg : Settings} {s t : State} {a : Action} (hwf : WellFormed s)
    (h : step cfg s a = some t) {j : JobId} (hj : s.onStream j = true) : t.onStream j = true := by
  obtain ⟨e, entry, hentry, hj⟩ := (onStream_iff hwf).mp hj
  obtain ⟨entry', hentry', hmsg⟩ := hwf.stream_persist h hentry
  exact (onStream_iff (hwf.step h)).mpr ⟨e, entry', hentry', hmsg ▸ hj⟩

theorem worker_onStream {s : State} (hwf : WellFormed s) {w : WorkerId} {msg : StreamMessage}
    (hmsg : (s.workers w).message = some msg) : s.onStream msg.jobId = true := by
  obtain ⟨entry, hentry, heq⟩ := hwf.worker_entry w msg hmsg
  exact (onStream_iff hwf).mpr ⟨msg.id, entry, hentry, by rw [heq]⟩

theorem stake_crash {s : State} {p : PublisherId} {j : JobId}
    (hst : (s.publishers p).stake j ≠ none) (hok : crashOutsideWindow s (.publisher p .crash)) :
    s.onStream j = true := by
  unfold crashOutsideWindow at hok
  cases hpc : s.publishers p <;> simp only [hpc, PublisherPc.stake] at hst hok
  case refreshing i caller | publishing i copy caller | unclaiming i copy exc =>
    obtain rfl : i = j := by simpa using hst
    exact hok
  all_goals exact absurd rfl hst

def InHand (s : State) : Prop :=
  ∀ j row, s.jobs j = some row →
    row.status = .pending ∨ s.onStream j = true ∨ ∃ p, (s.publishers p).stake j ≠ none

theorem InHand.step {cfg : Settings} {s t : State} {a : Action} (hwf : WellFormed s)
    (htracks : ∀ j, ∃ x, Tracks j s x) (hok : crashOutsideWindow s a)
    (h : step cfg s a = some t) (hs : InHand s) : InHand t := by
  intro j job hjob
  by_cases hon : s.onStream j = true
  · exact .inr (.inl (onStream_persist hwf h hon))
  obtain hquiet | ⟨w, act, msg, eff, rfl, hmsg, hmove, rfl⟩ | ⟨p, act, eff, rfl, hmove, rfl⟩ :=
    step_cases h
  · rw [hquiet.jobs] at hjob
    obtain hpending | hstream | ⟨p, hp⟩ := hs j job hjob
    · exact .inl hpending
    · exact absurd hstream hon
    · exact .inr (.inr ⟨p, by rwa [hquiet.publishers]⟩)
  · obtain hsame | ⟨new, rfl, -, -⟩ := applyWorker_row s w msg eff j
    · obtain hpending | hstream | hp := hs j job (hsame ▸ hjob)
      · exact .inl hpending
      · exact absurd hstream hon
      · exact .inr (.inr hp)
    · exact absurd (worker_onStream hwf hmsg) hon
  · by_cases hafter : eff.pc.stake j = none
    · by_cases hbefore : (s.publishers p).stake j = none
      · have hkeep := (hmove.unstaked hbefore hafter).2.2
        have hstatus : job.status = .pending ∨
            ∃ row, s.jobs j = some row ∧ job.status = row.status := by
          obtain hsame | ⟨payload, -, -, hnew, -⟩ | ⟨new, hw, hnew⟩ := applyPublisher_row hmove j
          · exact .inr ⟨job, hsame ▸ hjob, rfl⟩
          · cases hnew.symm.trans hjob
            exact .inl rfl
          · cases hnew.symm.trans hjob
            exact .inr (hkeep job hw)
        obtain hpending | ⟨row, hrow, hst⟩ := hstatus
        · exact .inl hpending
        · obtain hpending | hstream | ⟨i, hi⟩ := hs j row hrow
          · exact .inl (hst.trans hpending)
          · exact absurd hstream hon
          · refine .inr (.inr ⟨i, ?_⟩)
            rwa [applyPublisher_of_ne]
            intro heq
            exact hi (heq ▸ hbefore)
      · obtain ⟨x, hx⟩ := htracks j
        have hcrash := stake_crash hbefore
        generalize hpc : s.publishers p = pc at hmove hbefore
        cases hmove with
        | publishOk i copy caller correlationId =>
          obtain rfl : i = j := by simpa [PublisherPc.stake] using hbefore
          refine .inr (.inl ((onStream_iff (hwf.step h)).mpr ⟨s.nextEntry,
            { message := ⟨s.nextEntry, i, copy.repo, copy.prNumber, copy.commitSha,
              correlationId⟩ }, ?_, rfl⟩))
          simp [State.applyPublisher]
        | unclaim i copy exc =>
          obtain rfl : i = j := by simpa [PublisherPc.stake] using hbefore
          obtain ⟨row, hrow⟩ := hwf.publisher_job p i (by simp [hpc, PublisherPc.jobs])
          have hnew : job = row.unclaim s.now copy exc := by
            simpa [State.applyPublisher, hrow, eq_comm] using hjob
          rw [hnew]
          exact .inl (hx.unclaim hpc)
        | crash pc => exact absurd (hcrash hok) hon
        | refreshMissing i caller hmissing =>
          obtain ⟨row, hrow⟩ := hwf.publisher_job p i (by simp [hpc, PublisherPc.jobs])
          cases hmissing.symm.trans hrow
        | refresh i caller row hrow =>
          exact absurd hafter hbefore
        | publishLanded i copy caller correlationId exc | publishFailed i copy caller correlationId exc =>
          obtain rfl : i = j := by simpa [PublisherPc.stake] using hbefore
          simp [PublisherPc.stake] at hafter
        | _ => exact absurd rfl hbefore
    · exact .inr (.inr ⟨p, by rwa [applyPublisher_self]⟩)

theorem Reachable.inHand {cfg : Settings} {s : State}
    (h : (pipeline cfg).Reachable (fun s a => crashOutsideWindow s a) s) : InHand s := by
  refine Reachable.invariant (J := fun s => WellFormed s ∧ ∀ j, ∃ x, Tracks j s x) ?_ ?_ ?_ h
  · intro u hu
    refine ⟨Reachable.wellFormed hu, fun j => ?_⟩
    obtain ⟨x, -, hx⟩ := Reachable.tracks hu j
    exact ⟨x, hx⟩
  · intro j row hrow
    cases hrow
  · intro u a v hJ hok hstep hu
    exact hu.step hJ.1 hJ.2 hok hstep

theorem stake_midCall {pc : PublisherPc} {j : JobId} (h : pc.midCall = false) :
    pc.stake j = none := by
  cases pc <;> first | rfl | cases h

/-- With the publishers at rest every row, in particular every unfinished one, is
PENDING or was published. -/
theorem no_stranded_job {cfg : Settings} {s : State}
    (h : (pipeline cfg).Reachable (fun s a => crashOutsideWindow s a) s)
    (hrest : ∀ p, (s.publishers p).midCall = false) {j : JobId} {row : PRJob}
    (hrow : s.jobs j = some row) : row.status = .pending ∨ s.onStream j = true := by
  obtain hpending | hstream | ⟨p, hp⟩ := Reachable.inHand h j row hrow
  · exact .inl hpending
  · exact .inr hstream
  · exact absurd (stake_midCall (hrest p)) hp

theorem after_rest {cfg : Settings} {acts : List Action} (ps : List PublisherId)
    {h : ((pipeline cfg).exec acts (pipeline cfg).init).isSome}
    (hacts : ∀ a ∈ acts, a.publisher?.all (· ∈ ps) = true)
    (hrest : ∀ p ∈ ps, (((pipeline cfg).after acts h).publishers p).midCall = false)
    (p : PublisherId) : (((pipeline cfg).after acts h).publishers p).midCall = false := by
  by_cases hp : p ∈ ps
  · exact hrest p hp
  · rw [after_idle h]
    · rfl
    · intro a ha heq
      have hmem := hacts a ha
      rw [heq] at hmem
      exact hp (by simpa using hmem)

theorem no_stranded_job_published :
    ∃ row, ((pipeline .small).after (ingestRun 0) (by decide)).jobs 0 = some row ∧
      (row.status = .pending ∨
        ((pipeline .small).after (ingestRun 0) (by decide)).onStream 0 = true) := by
  refine ⟨_, (Option.some_get (by decide)).symm, ?_⟩
  refine no_stranded_job (Reachable.after (by decide) (by decide)) (fun p => ?_)
    (Option.some_get (by decide)).symm
  exact after_rest [0] (by decide) (by decide) p

def strandRun : List Action :=
  [.ingest .sample, .insert, .select, .claim, .crash].map (.publisher 0)

theorem job_stranded :
    ∃ s, (pipeline .small).Reachable anyStep s ∧ (∀ p, (s.publishers p).midCall = false) ∧
      (s.jobs 0).map (·.status) = some .queued ∧ s.onStream 0 = false := by
  refine ⟨(pipeline .small).after strandRun (by decide),
    Reachable.after _ (System.Admits.any _ _), ?_, by decide, by decide⟩
  exact after_rest [0] (by decide) (by decide)

end AutoPR.Jobs
