import AutoPR.Jobs.System

/-! What one step can do. Each statement of a worker or a publisher is one
constructor below; every later invariant is proved by cases on these moves and
no proof unfolds the step functions again. -/
namespace AutoPR.Jobs
open UnitOfWork Transition

inductive Blocked : WorkerPc → StreamMessage → Prop where
  | received (msg) : Blocked (.received msg) msg
  | escalating (msg copy) : Blocked (.escalating msg copy) msg
  | stamped (msg copy stamp) : Blocked (.stamped msg copy stamp) msg
  | running (msg copy stamp) : Blocked (.running msg copy stamp) msg

inductive WorkerMove (cfg : Settings) (now : Nat) (row : Option PRJob) :
    WorkerPc → WorkerAct → WorkerEffect → Prop where
  | readMissing (msg) (hrow : row = none) :
      WorkerMove cfg now row (.received msg) .read { pc := .acking msg }
  | readFinished (msg job) (hrow : row = some job) (ht : job.status.terminal = true) :
      WorkerMove cfg now row (.received msg) .read { pc := .acking msg }
  | readExhausted (msg job) (hrow : row = some job) (ht : job.status.terminal = false)
      (hcap : cfg.maxAttempts ≤ job.attempts) :
      WorkerMove cfg now row (.received msg) .read { pc := .escalating msg job }
  | readLive (msg job) (hrow : row = some job) (ht : job.status.terminal = false)
      (hcap : job.attempts < cfg.maxAttempts) :
      WorkerMove cfg now row (.received msg) .read { pc := .claiming msg job }
  | escalate (msg copy job) (hrow : row = some job) :
      WorkerMove cfg now row (.escalating msg copy) .escalate
        { pc := .acking msg, write := some (job.escalate now copy) }
  | stampClaim (msg copy) :
      WorkerMove cfg now row (.claiming msg copy) .stampClaim { pc := .stamped msg copy now }
  | claimWon (msg copy stamp job job') (hrow : row = some job)
      (hclaim : job.claim cfg stamp = some job') :
      WorkerMove cfg now row (.stamped msg copy stamp) .claim
        { pc := .running msg copy stamp, write := some job',
          events := [.started msg.jobId msg.id] }
  | claimLost (msg copy stamp) (hrow : row.bind (·.claim cfg stamp) = none) :
      WorkerMove cfg now row (.stamped msg copy stamp) .claim { pc := .acking msg }
  | succeed (msg copy stamp job summary) (hrow : row = some job) :
      WorkerMove cfg now row (.running msg copy stamp) (.succeed summary)
        { pc := .acking msg, write := some (job.finish now copy), record := some summary,
          events := [.completed msg.jobId summary] }
  | raise (msg copy stamp exc) :
      WorkerMove cfg now row (.running msg copy stamp) (.raise exc)
        { pc := .releasing msg copy stamp exc }
  | release (msg copy stamp exc) :
      WorkerMove cfg now row (.releasing msg copy stamp exc) .release
        { pc := .erring msg copy exc (.handler stamp true),
          write := row.bind (·.release now stamp exc) }
  | ack (msg) : WorkerMove cfg now row (.acking msg) .ack { pc := .finished, ack := true }
  | ackRaise (msg landed exc) :
      WorkerMove cfg now row (.acking msg) (.ackRaise landed exc)
        { pc := .failed msg exc .other, ack := landed }
  | releaseError (msg copy stamp exc exc') :
      WorkerMove cfg now row (.releasing msg copy stamp exc) (.dbError exc')
        { pc := .failed msg exc (.handler stamp false) }
  | reload (msg exc cause job) (hrow : row = some job) :
      WorkerMove cfg now row (.failed msg exc cause) .reload { pc := .erring msg job exc cause }
  | reloadMissing (msg exc cause) (hrow : row = none) :
      WorkerMove cfg now row (.failed msg exc cause) .reload { pc := .finished }
  | recordError (msg copy exc cause) :
      WorkerMove cfg now row (.erring msg copy exc cause) .recordError
        { pc := .finished, write := row.map (·.recordError now copy exc) }
  | escalateMissing (msg copy) (hrow : row = none) :
      WorkerMove cfg now row (.escalating msg copy) .escalate { pc := .failed msg staleData .other }
  | succeedMissing (msg copy stamp summary) (hrow : row = none) :
      WorkerMove cfg now row (.running msg copy stamp) (.succeed summary)
        { pc := .failed msg staleData .other }
  | dbError (pc msg exc) (hpc : Blocked pc msg) :
      WorkerMove cfg now row pc (.dbError exc) { pc := .failed msg exc .other }
  | reloadError (msg exc cause exc') :
      WorkerMove cfg now row (.failed msg exc cause) (.dbError exc') { pc := .finished }
  | recordErrorError (msg copy exc cause exc') :
      WorkerMove cfg now row (.erring msg copy exc cause) (.dbError exc') { pc := .finished }
  | crash (pc msg) (hmsg : pc.message = some msg) :
      WorkerMove cfg now row pc .crash { pc := .crashed }

theorem workerStep_move {cfg : Settings} {now : Nat} {row : Option PRJob} {pc : WorkerPc}
    {act : WorkerAct} {eff : WorkerEffect} (h : workerStep cfg now row pc act = some eff) :
    WorkerMove cfg now row pc act eff := by
  cases pc <;> cases act <;> simp only [workerStep, reduceCtorEq, Option.some.injEq] at h
  all_goals try (subst h)
  case received.read msg =>
    cases hrow : row with
    | none => exact .readMissing msg rfl
    | some job =>
      cases ht : job.status.terminal with
      | true => simpa [afterRead, ht] using WorkerMove.readFinished msg job rfl ht
      | false =>
        by_cases hcap : cfg.maxAttempts ≤ job.attempts
        · simpa [afterRead, ht, hcap] using WorkerMove.readExhausted msg job rfl ht hcap
        · simpa [afterRead, ht, hcap] using
            WorkerMove.readLive msg job rfl ht (Nat.lt_of_not_le hcap)
  case escalating.escalate msg copy =>
    cases hrow : row with
    | none =>
      rw [hrow] at h
      cases h
      exact .escalateMissing msg copy rfl
    | some job =>
      rw [hrow] at h
      cases h
      exact .escalate msg copy job rfl
  case claiming.stampClaim msg copy => exact .stampClaim msg copy
  case stamped.claim msg copy stamp =>
    cases hclaim : row.bind (·.claim cfg stamp) with
    | none =>
      rw [hclaim] at h
      cases h
      exact .claimLost msg copy stamp hclaim
    | some job' =>
      rw [hclaim] at h
      cases h
      obtain ⟨job, hrow, hjob⟩ := Option.bind_eq_some_iff.mp hclaim
      exact .claimWon msg copy stamp job job' hrow hjob
  case running.succeed msg copy stamp summary =>
    cases hrow : row with
    | none =>
      rw [hrow] at h
      cases h
      exact .succeedMissing msg copy stamp summary rfl
    | some job =>
      rw [hrow] at h
      cases h
      exact .succeed msg copy stamp job summary rfl
  case running.raise msg copy stamp exc => exact .raise msg copy stamp exc
  case releasing.release msg copy stamp exc => exact .release msg copy stamp exc
  case acking.ack msg => exact .ack msg
  case acking.ackRaise msg landed exc => exact .ackRaise msg landed exc
  case failed.reload msg exc cause =>
    cases hrow : row with
    | none =>
      rw [hrow] at h
      cases h
      exact .reloadMissing msg exc cause rfl
    | some job =>
      rw [hrow] at h
      cases h
      exact .reload msg exc cause job rfl
  case erring.recordError msg copy exc cause => exact .recordError msg copy exc cause
  case received.dbError msg exc => exact .dbError _ msg exc (.received msg)
  case escalating.dbError msg copy exc => exact .dbError _ msg exc (.escalating msg copy)
  case stamped.dbError msg copy stamp exc => exact .dbError _ msg exc (.stamped msg copy stamp)
  case running.dbError msg copy stamp exc => exact .dbError _ msg exc (.running msg copy stamp)
  case releasing.dbError msg copy stamp exc _ => exact .releaseError msg copy stamp exc _
  case failed.dbError msg exc cause _ => exact .reloadError msg exc cause _
  case erring.dbError msg copy exc cause _ => exact .recordErrorError msg copy exc cause _
  all_goals exact .crash _ _ rfl

theorem findJob_eq_some {jobs : JobTable} {nextId j : JobId} {key : String}
    (h : findJob jobs nextId key = some j) :
    ∃ row, jobs j = some row ∧ row.dedupKey = key := by
  have hj := List.find?_some h
  cases hrow : jobs j with
  | none => simp [hrow] at hj
  | some row => exact ⟨row, rfl, by simpa [hrow] using hj⟩

theorem findJob_eq_none {jobs : JobTable} {nextId j : JobId} {key : String} {row : PRJob}
    (h : findJob jobs nextId key = none) (hj : j < nextId) (hrow : jobs j = some row) :
    row.dedupKey ≠ key := by
  have hne := List.find?_eq_none.mp h j (List.mem_range.mpr hj)
  simpa [hrow] using hne

theorem mem_pendingJobs {jobs : JobTable} {nextId j : JobId} :
    j ∈ pendingJobs jobs nextId ↔ j < nextId ∧ ∃ row, jobs j = some row ∧ row.status = .pending := by
  cases hrow : jobs j <;> simp [pendingJobs, hrow]

inductive PublisherMove (cfg : Settings) (now : Nat) (jobs : JobTable) (nextId : JobId)
    (nextEntry : EntryId) (p : PublisherId) : PublisherPc → PublisherAct →
    PublisherEffect → Prop where
  | startIngest (payload) :
      PublisherMove cfg now jobs nextId nextEntry p .idle (.ingest payload)
        { pc := .inserting payload, events := [.called p (payload.dedupKey cfg.sha256)] }
  | startReconcile :
      PublisherMove cfg now jobs nextId nextEntry p .idle .reconcile
        { pc := .sweeping (pendingJobs jobs nextId) 0 }
  | insertLost (payload j) (hfind : findJob jobs nextId (payload.dedupKey cfg.sha256) = some j) :
      PublisherMove cfg now jobs nextId nextEntry p (.inserting payload) .insert
        { pc := .selecting payload false }
  | insertWon (payload) (hfind : findJob jobs nextId (payload.dedupKey cfg.sha256) = none) :
      PublisherMove cfg now jobs nextId nextEntry p (.inserting payload) .insert
        { pc := .selecting payload true, insert := some (payload.newJob cfg now),
          events := [.inserted p nextId (payload.dedupKey cfg.sha256)] }
  | select (payload created j)
      (hfind : findJob jobs nextId (payload.dedupKey cfg.sha256) = some j)
      (hpub : created = true ∨ ∃ row, jobs j = some row ∧ row.status = .pending) :
      PublisherMove cfg now jobs nextId nextEntry p (.selecting payload created) .select
        { pc := .claiming j (.ingest created) }
  | selectDuplicate (payload j row)
      (hfind : findJob jobs nextId (payload.dedupKey cfg.sha256) = some j)
      (hrow : jobs j = some row) (hst : row.status ≠ .pending) :
      PublisherMove cfg now jobs nextId nextEntry p (.selecting payload false) .select
        { pc := .returned j false }
  | nextJob (j rest count) :
      PublisherMove cfg now jobs nextId nextEntry p (.sweeping (j :: rest) count) .next
        { pc := .claiming j (.reconcile rest count) }
  | nextDone (count) :
      PublisherMove cfg now jobs nextId nextEntry p (.sweeping [] count) .next { pc := .swept count }
  | claimWon (j caller row job) (hrow : jobs j = some row) (hclaim : row.claimPublish now = some job) :
      PublisherMove cfg now jobs nextId nextEntry p (.claiming j caller) .claim
        { pc := .refreshing j caller, write := some (j, job) }
  | claimLost (j caller) (hrow : (jobs j).bind (·.claimPublish now) = none) :
      PublisherMove cfg now jobs nextId nextEntry p (.claiming j caller) .claim
        { pc := caller.resume j false }
  | refresh (j caller job) (hrow : jobs j = some job) :
      PublisherMove cfg now jobs nextId nextEntry p (.refreshing j caller) .refresh
        { pc := .publishing j job caller }
  | publishOk (j copy caller correlationId) :
      PublisherMove cfg now jobs nextId nextEntry p (.publishing j copy caller)
        (.publish correlationId .ok)
        { pc := .confirming j copy nextEntry caller
          xadd := some ⟨nextEntry, j, copy.repo, copy.prNumber, copy.commitSha, correlationId⟩
          events := [.published j nextEntry] }
  | publishLanded (j copy caller correlationId exc) :
      PublisherMove cfg now jobs nextId nextEntry p (.publishing j copy caller)
        (.publish correlationId (.raised true exc))
        { pc := .unclaiming j copy exc
          xadd := some ⟨nextEntry, j, copy.repo, copy.prNumber, copy.commitSha, correlationId⟩
          events := [.publishRaised j] }
  | publishFailed (j copy caller correlationId exc) :
      PublisherMove cfg now jobs nextId nextEntry p (.publishing j copy caller)
        (.publish correlationId (.raised false exc))
        { pc := .unclaiming j copy exc, events := [.publishRaised j] }
  | confirm (j copy msgId caller) :
      PublisherMove cfg now jobs nextId nextEntry p (.confirming j copy msgId caller) .confirm
        { pc := caller.resume j true
          write := (jobs j).map fun job => (j, job.confirm now copy msgId) }
  | unclaim (j copy exc) :
      PublisherMove cfg now jobs nextId nextEntry p (.unclaiming j copy exc) .unclaim
        { pc := .raised, write := (jobs j).map fun job => (j, job.unclaim now copy exc) }
  | selectMissing (payload created)
      (hfind : findJob jobs nextId (payload.dedupKey cfg.sha256) = none) :
      PublisherMove cfg now jobs nextId nextEntry p (.selecting payload created) .select
        { pc := .raised }
  | refreshMissing (j caller) (hrow : jobs j = none) :
      PublisherMove cfg now jobs nextId nextEntry p (.refreshing j caller) .refresh
        { pc := .raised }
  | crash (pc) : PublisherMove cfg now jobs nextId nextEntry p pc .crash { pc := .crashed }

theorem publisherStep_move {cfg : Settings} {now : Nat} {jobs : JobTable} {nextId : JobId}
    {nextEntry : EntryId} {p : PublisherId} {pc : PublisherPc} {act : PublisherAct}
    {eff : PublisherEffect} (h : publisherStep cfg now jobs nextId nextEntry p pc act = some eff) :
    PublisherMove cfg now jobs nextId nextEntry p pc act eff := by
  cases pc <;> cases act <;> simp only [publisherStep, reduceCtorEq, Option.some.injEq] at h
  all_goals try (subst h)
  case idle.ingest payload => exact .startIngest payload
  case idle.reconcile => exact .startReconcile
  case inserting.insert payload =>
    cases hfind : findJob jobs nextId (payload.dedupKey cfg.sha256) with
    | none =>
      rw [hfind] at h
      cases h
      exact .insertWon payload hfind
    | some j =>
      rw [hfind] at h
      cases h
      exact .insertLost payload j hfind
  case selecting.select payload created =>
    cases hfind : findJob jobs nextId (payload.dedupKey cfg.sha256) with
    | none =>
      rw [hfind] at h
      cases h
      exact .selectMissing payload created hfind
    | some j =>
      obtain ⟨row, hrow, -⟩ := findJob_eq_some hfind
      rw [hfind] at h
      simp only [hrow, Option.any_some] at h
      split at h
      · rename_i hpub
        cases h
        refine .select payload created j hfind ?_
        simpa [hrow] using hpub
      · rename_i hpub
        cases h
        obtain ⟨hcreated, hst⟩ : created = false ∧ row.status ≠ .pending := by simpa using hpub
        subst hcreated
        exact .selectDuplicate payload j row hfind hrow hst
  case sweeping.next todo count =>
    cases todo with
    | nil =>
      cases h
      exact .nextDone count
    | cons j rest =>
      cases h
      exact .nextJob j rest count
  case claiming.claim j caller =>
    cases hclaim : (jobs j).bind (·.claimPublish now) with
    | none =>
      rw [hclaim] at h
      cases h
      exact .claimLost j caller hclaim
    | some job =>
      rw [hclaim] at h
      cases h
      obtain ⟨row, hrow, hjob⟩ := Option.bind_eq_some_iff.mp hclaim
      exact .claimWon j caller row job hrow hjob
  case refreshing.refresh j caller =>
    cases hrow : jobs j with
    | none =>
      rw [hrow] at h
      cases h
      exact .refreshMissing j caller hrow
    | some job =>
      rw [hrow] at h
      cases h
      exact .refresh j caller job hrow
  case publishing.publish j copy caller correlationId outcome =>
    cases outcome with
    | ok =>
      cases h
      exact .publishOk j copy caller correlationId
    | raised landed exc =>
      cases h
      cases landed with
      | true => exact .publishLanded j copy caller correlationId exc
      | false => exact .publishFailed j copy caller correlationId exc
  case confirming.confirm j copy msgId caller => exact .confirm j copy msgId caller
  case unclaiming.unclaim j copy exc => exact .unclaim j copy exc
  all_goals exact .crash _

section
variable {cfg : Settings} {s t : State}

theorem step_worker {w : WorkerId} {act : WorkerAct} (h : step cfg s (.worker w act) = some t) :
    ∃ msg eff, (s.workers w).message = some msg ∧
      WorkerMove cfg s.now (s.jobs msg.jobId) (s.workers w) act eff ∧
      t = s.applyWorker w msg eff := by
  simp only [step, Option.pure_def, Option.bind_eq_bind, Option.bind_eq_some_iff,
    Option.some.injEq] at h
  obtain ⟨msg, hmsg, eff, heff, rfl⟩ := h
  exact ⟨msg, eff, hmsg, workerStep_move heff, rfl⟩

theorem step_publisher {p : PublisherId} {act : PublisherAct}
    (h : step cfg s (.publisher p act) = some t) :
    ∃ eff, PublisherMove cfg s.now s.jobs s.nextId s.nextEntry p (s.publishers p) act eff ∧
      t = s.applyPublisher p eff := by
  simp only [step, Option.map_eq_some_iff] at h
  obtain ⟨eff, heff, rfl⟩ := h
  exact ⟨eff, publisherStep_move heff, rfl⟩

theorem step_consume {w : WorkerId} (h : step cfg s (.consume w) = some t) :
    ∃ entry, s.workers w = .idle ∧ s.stream s.cursor = some entry ∧
      t = { s.deliver w s.cursor entry with cursor := s.cursor + 1 } := by
  simp only [step] at h
  split at h
  · rename_i entry hw hentry
    cases h
    exact ⟨entry, hw, hentry, rfl⟩
  · cases h

theorem step_reclaim {w : WorkerId} {e : EntryId} (h : step cfg s (.reclaim w e) = some t) :
    ∃ entry delivered, s.workers w = .idle ∧ s.stream e = some entry ∧
      entry.deliveredAt = some delivered ∧ entry.acked = false ∧
      delivered + cfg.reclaimIdle ≤ s.now ∧ t = s.deliver w e entry := by
  simp only [step] at h
  split at h
  · rename_i entry hw hentry
    split at h
    · rename_i delivered hdelivered
      split at h
      · rename_i hidle
        cases h
        simp only [Bool.and_eq_true, Bool.not_eq_true', decide_eq_true_eq] at hidle
        exact ⟨entry, delivered, hw, hentry, hdelivered, hidle.1, hidle.2, rfl⟩
      · cases h
    · cases h
  · cases h

end

end AutoPR.Jobs
