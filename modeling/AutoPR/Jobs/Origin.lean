import AutoPR.Jobs.NoWork

/-! Whose work a running handler does. The copy that it was given names the pull request, the
commit and the tenant of the row it has claimed, and its claim is on record. -/
namespace AutoPR.Jobs
open UnitOfWork Transition

structure Origin where
  repo : String
  prNumber : Int
  commitSha : String
  installationId : Option Int
deriving DecidableEq

def PRJob.origin (job : PRJob) : Origin :=
  ⟨job.repo, job.prNumber, job.commitSha, job.installationId⟩

/-- A copy that a worker acts on is about what its row is about, and a handler runs after its
start has been recorded. -/
structure Sourced (s : State) : Prop where
  copies : ∀ w msg copy, (s.workers w).message = some msg → (s.workers w).advisory = some copy →
    ∃ row, s.jobs msg.jobId = some row ∧ row.origin = copy.origin
  started : ∀ w msg copy stamp, s.workers w = .running msg copy stamp →
    .started msg.jobId msg.id ∈ s.events

section
variable {cfg : Settings} {s t : State} {a : Action}

theorem RowWrite.origin {now : Nat} {row job : PRJob} (h : RowWrite cfg now row job) :
    job.origin = row.origin := by
  rw [h.frame]
  rfl

theorem origin_persist (hwf : WellFormed s) (h : step cfg s a = some t) {j : JobId} {row : PRJob}
    (hrow : s.jobs j = some row) : ∃ job, t.jobs j = some job ∧ job.origin = row.origin := by
  obtain hsame | ⟨rfl, -⟩ | ⟨old, job, hold, hnew, hwrite⟩ := step_jobs h j
  · exact ⟨row, hsame ▸ hrow, rfl⟩
  · cases hwf.jobs_nextId.symm.trans hrow
  · cases hold.symm.trans hrow
    exact ⟨job, hnew, hwrite.origin⟩

theorem step_events_mono (h : step cfg s a = some t) {e : Event} (he : e ∈ s.events) :
    e ∈ t.events := by
  obtain hquiet | ⟨w, act, msg, eff, -, -, -, rfl⟩ | ⟨p, act, eff, -, -, rfl⟩ := step_cases h
  · rw [hquiet.events]
    exact he
  · rw [applyWorker_events]
    exact List.mem_append_right _ he
  · rw [applyPublisher_events]
    exact List.mem_append_right _ he

theorem WorkerMove.records {now : Nat} {row : Option PRJob} {pc : WorkerPc} {act : WorkerAct}
    {eff : WorkerEffect} {msg : StreamMessage} {copy : PRJob} {stamp : Nat}
    (h : WorkerMove cfg now row pc act eff) (hpc : eff.pc = .running msg copy stamp) :
    .started msg.jobId msg.id ∈ eff.events := by
  cases h with
  | claimWon =>
    cases hpc
    exact List.mem_singleton_self _
  | _ => cases hpc

theorem Sourced.initial : Sourced State.initial where
  copies _ _ _ hmsg := by cases hmsg
  started _ _ _ _ hpc := by cases hpc

theorem Sourced.step_copies (hs : Sourced s) (hwf : WellFormed s) (h : step cfg s a = some t)
    (w : WorkerId) (msg : StreamMessage) (copy : PRJob) (hmsg : (t.workers w).message = some msg)
    (hcopy : (t.workers w).advisory = some copy) :
    ∃ row, t.jobs msg.jobId = some row ∧ row.origin = copy.origin := by
  have hold : ∃ row, s.jobs msg.jobId = some row ∧ row.origin = copy.origin := by
    obtain hsame | ⟨e, entry, -, hpc⟩ | ⟨act, msg', eff, -, hmsg', hmove, rfl⟩ := step_workers h w
    · rw [hsame] at hmsg hcopy
      exact hs.copies w msg copy hmsg hcopy
    · rw [hpc] at hcopy
      cases hcopy
    · rw [applyWorker_self] at hmsg hcopy
      cases hmsg'.symm.trans (hmove.message hmsg)
      obtain hbefore | hread := hmove.advised hcopy
      · exact hs.copies w msg copy hmsg' hbefore
      · exact ⟨copy, hread, rfl⟩
  obtain ⟨row, hrow, hsame⟩ := hold
  obtain ⟨job, hjob, horigin⟩ := origin_persist hwf h hrow
  exact ⟨job, hjob, horigin.trans hsame⟩

theorem Sourced.step (hs : Sourced s) (hwf : WellFormed s) (h : step cfg s a = some t) :
    Sourced t where
  copies := hs.step_copies hwf h
  started w msg copy stamp hpc := by
    obtain hsame | ⟨e, entry, -, hrec⟩ | ⟨act, msg', eff, -, -, hmove, rfl⟩ := step_workers h w
    · exact step_events_mono h (hs.started w msg copy stamp (hsame ▸ hpc))
    · cases hrec.symm.trans hpc
    · rw [applyWorker_self] at hpc
      rw [applyWorker_events]
      exact List.mem_append_left _ (hmove.records hpc)

theorem Reachable.sourced {ok : State → Action → Prop} (h : (pipeline cfg).Reachable ok s) :
    Sourced s :=
  Reachable.invariant (J := WellFormed) (fun _ hu => Reachable.wellFormed hu) Sourced.initial
    (fun _ _ _ hwf _ hstep hs => hs.step hwf hstep) h

end

end AutoPR.Jobs
