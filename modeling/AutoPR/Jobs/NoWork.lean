import AutoPR.Jobs.Terminal

/-! A tenant without work in the pipeline: its jobs are finished, none of their handlers
is running, and no delivery of its own is about to be inserted. -/
namespace AutoPR.Jobs
open UnitOfWork Transition

structure NoWork (i : Int) (s : State) : Prop where
  rows : ∀ j row, s.jobs j = some row → row.installationId = some i → row.status.terminal = true
  running : ∀ w msg copy stamp, s.workers w = .running msg copy stamp → copy.installationId ≠ some i
  inserting : ∀ p payload, s.publishers p = .inserting payload → payload.installationId ≠ some i

def Advised (s : State) : Prop :=
  ∀ w msg copy, (s.workers w).message = some msg → (s.workers w).advisory = some copy →
    ∃ row, s.jobs msg.jobId = some row ∧ row.installationId = copy.installationId

theorem NoWork.initial (i : Int) : NoWork i State.initial where
  rows _ _ h := by cases h
  running _ _ _ _ h := by cases h
  inserting _ _ h := by cases h

section
variable {cfg : Settings} {s t : State} {a : Action} {i : Int}

theorem tenant_persist (hwf : WellFormed s) (h : step cfg s a = some t) {j : JobId} {row : PRJob}
    (hrow : s.jobs j = some row) :
    ∃ job, t.jobs j = some job ∧ job.installationId = row.installationId := by
  obtain hsame | ⟨rfl, -⟩ | ⟨old, job, hold, hnew, hwrite⟩ := step_jobs h j
  · exact ⟨row, hsame ▸ hrow, rfl⟩
  · cases hwf.jobs_nextId.symm.trans hrow
  · cases hold.symm.trans hrow
    exact ⟨job, hnew, hwrite.installationId⟩

theorem WorkerMove.advised {now : Nat} {row : Option PRJob} {pc : WorkerPc} {act : WorkerAct}
    {eff : WorkerEffect} {copy : PRJob} (h : WorkerMove cfg now row pc act eff)
    (hcopy : eff.pc.advisory = some copy) : pc.advisory = some copy ∨ row = some copy := by
  cases h with
  | readExhausted msg job hrow | readLive msg job hrow =>
    cases hcopy
    exact .inr hrow
  | stampClaim | claimWon => exact .inl hcopy
  | _ => cases hcopy

theorem Advised.step (hs : Advised s) (hwf : WellFormed s) (h : step cfg s a = some t) :
    Advised t := by
  intro w msg copy hmsg hcopy
  have hold : ∃ row, s.jobs msg.jobId = some row ∧ row.installationId = copy.installationId := by
    obtain hsame | ⟨e, entry, -, hpc⟩ | ⟨act, msg', eff, -, hmsg', hmove, rfl⟩ := step_workers h w
    · rw [hsame] at hmsg hcopy
      exact hs w msg copy hmsg hcopy
    · rw [hpc] at hcopy
      cases hcopy
    · rw [applyWorker_self] at hmsg hcopy
      cases hmsg'.symm.trans (hmove.message hmsg)
      obtain hbefore | hread := hmove.advised hcopy
      · exact hs w msg copy hmsg' hbefore
      · exact ⟨copy, hread, rfl⟩
  obtain ⟨row, hrow, hsame⟩ := hold
  obtain ⟨job, hjob, htenant⟩ := tenant_persist hwf h hrow
  exact ⟨job, hjob, htenant.trans hsame⟩

theorem Reachable.advised {ok : State → Action → Prop} (h : (pipeline cfg).Reachable ok s) :
    Advised s :=
  Reachable.invariant (J := WellFormed) (fun _ hu => Reachable.wellFormed hu)
    (fun _ _ _ hmsg => by cases hmsg) (fun _ _ _ hwf _ hstep hs => hs.step hwf hstep) h

theorem WorkerMove.running {now : Nat} {row : Option PRJob} {pc : WorkerPc} {act : WorkerAct}
    {eff : WorkerEffect} {msg : StreamMessage} {copy : PRJob} {stamp : Nat}
    (h : WorkerMove cfg now row pc act eff) (hpc : eff.pc = .running msg copy stamp) :
    pc = .stamped msg copy stamp ∧ ∃ job, row = some job ∧ job.status.terminal = false := by
  cases h with
  | claimWon msg' copy' stamp' job new hrow hclaim =>
    cases hpc
    refine ⟨rfl, job, hrow, ?_⟩
    by_contra hfin
    exact claim_terminal ((Bool.not_eq_false _).mp hfin) hclaim
  | _ => cases hpc

theorem WorkerMove.started {now : Nat} {row : Option PRJob} {pc : WorkerPc} {act : WorkerAct}
    {eff : WorkerEffect} {j : JobId} {entry : EntryId} (h : WorkerMove cfg now row pc act eff)
    (he : .started j entry ∈ eff.events) :
    ∃ msg copy stamp, eff.pc = .running msg copy stamp ∧ msg.jobId = j := by
  cases h with
  | claimWon msg copy stamp =>
    cases List.mem_singleton.mp he
    exact ⟨msg, copy, stamp, rfl, rfl⟩
  | succeed =>
    cases List.mem_singleton.mp he
  | _ => cases he

theorem PublisherMove.inserting {now : Nat} {jobs : JobTable} {nextId : JobId} {nextEntry : EntryId}
    {p : PublisherId} {pc : PublisherPc} {act : PublisherAct} {eff : PublisherEffect}
    {payload : PRPayload} (h : PublisherMove cfg now jobs nextId nextEntry p pc act eff)
    (hpc : eff.pc = .inserting payload) : act = .ingest payload := by
  cases h with
  | startIngest payload' =>
    cases hpc
    rfl
  | claimLost j caller | confirm j copy msgId caller => cases caller <;> cases hpc
  | _ => cases hpc

theorem PublisherMove.not_started {now : Nat} {jobs : JobTable} {nextId : JobId}
    {nextEntry : EntryId} {p : PublisherId} {pc : PublisherPc} {act : PublisherAct}
    {eff : PublisherEffect} {j : JobId} {entry : EntryId}
    (h : PublisherMove cfg now jobs nextId nextEntry p pc act eff) :
    .started j entry ∉ eff.events := by
  intro he
  cases h <;> simp at he

theorem NoWork.no_start (hs : NoWork i s) (h : step cfg s a = some t) {new : List Event}
    (hnew : t.events = new ++ s.events) {j : JobId} {entry : EntryId}
    (he : .started j entry ∈ new) {row : PRJob} (hrow : s.jobs j = some row) :
    row.installationId ≠ some i := by
  intro hi
  obtain hquiet | ⟨w, act, msg, eff, -, hmsg, hmove, rfl⟩ | ⟨p, act, eff, -, hmove, rfl⟩ :=
    step_cases h
  · rw [hquiet.events, List.self_eq_append_left] at hnew
    rw [hnew] at he
    cases he
  · rw [applyWorker_events, List.append_cancel_right_eq] at hnew
    rw [← hnew] at he
    obtain ⟨msg', copy, stamp, hpc, rfl⟩ := hmove.started he
    obtain ⟨hstamped, job, hjob, hopen⟩ := hmove.running hpc
    rw [hstamped] at hmsg
    cases hmsg
    cases hjob.symm.trans hrow
    cases hopen.symm.trans (hs.rows _ row hrow hi)
  · rw [applyPublisher_events, List.append_cancel_right_eq] at hnew
    rw [← hnew] at he
    exact hmove.not_started he

theorem NoWork.step_rows (hs : NoWork i s) (hwf : WellFormed s) (h : step cfg s a = some t)
    (hkept : ∀ j row, s.subject a = some j → s.jobs j = some row → row.installationId = some i →
      finishedKept s a) (j : JobId) (job : PRJob) (hjob : t.jobs j = some job)
    (hi : job.installationId = some i) : job.status.terminal = true := by
  have hold : ∀ row, s.jobs j = some row → row.installationId = some i →
      job.status.terminal = true := by
    intro row hrow htenant
    have hfin := hs.rows j row hrow htenant
    obtain ⟨job', hjob', hst⟩ := step_finished_of hwf h (fun hj => hkept j row hj hrow htenant) hrow hfin
    cases hjob'.symm.trans hjob
    rw [hst]
    exact hfin
  obtain hsame | ⟨-, -, payload, hnew, -, p, hpc⟩ | ⟨row, job', hrow, hjob', hwrite⟩ :=
    step_jobs h j
  · exact hold job (hsame ▸ hjob) hi
  · cases hnew.symm.trans hjob
    exact absurd hi (hs.inserting p payload hpc)
  · cases hjob'.symm.trans hjob
    exact hold row hrow (hwrite.installationId.symm.trans hi)

theorem NoWork.step (hs : NoWork i s) (hwf : WellFormed s) (hadv : Advised s)
    (h : step cfg s a = some t)
    (hkept : ∀ j row, s.subject a = some j → s.jobs j = some row → row.installationId = some i →
      finishedKept s a)
    (hgate : ∀ p payload, a = .publisher p (.ingest payload) → payload.installationId ≠ some i) :
    NoWork i t where
  rows := hs.step_rows hwf h hkept
  running w msg copy stamp hpc := by
    obtain hsame | ⟨e, entry, -, hrec⟩ | ⟨act, msg', eff, -, hmsg, hmove, rfl⟩ := step_workers h w
    · exact hs.running w msg copy stamp (hsame ▸ hpc)
    · cases hrec.symm.trans hpc
    · rw [applyWorker_self] at hpc
      obtain ⟨hstamped, job, hjob, hopen⟩ := hmove.running hpc
      rw [hstamped] at hmsg
      cases hmsg
      obtain ⟨row, hrow, htenant⟩ := hadv w msg copy (by rw [hstamped]; rfl) (by rw [hstamped]; rfl)
      cases hrow.symm.trans hjob
      intro hi
      cases hopen.symm.trans (hs.rows _ job hjob (htenant.trans hi))
  inserting p payload hpc := by
    obtain hquiet | ⟨w, act, msg, eff, -, -, -, rfl⟩ | ⟨p', act, eff, rfl, hmove, rfl⟩ := step_cases h
    · exact hs.inserting p payload (hquiet.publishers ▸ hpc)
    · exact hs.inserting p payload hpc
    · by_cases hp : p = p'
      · subst hp
        rw [applyPublisher_self] at hpc
        rw [hmove.inserting hpc] at hgate
        exact hgate p payload rfl
      · rw [applyPublisher_of_ne _ _ _ hp] at hpc
        exact hs.inserting p payload hpc

end

end AutoPR.Jobs
