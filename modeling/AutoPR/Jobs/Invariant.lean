import AutoPR.Jobs.Steps

/-! Invariants that hold in every reachable state, whatever the interleaving:
ids point to rows and entries that exist, rows never go, and the statements of
one row are the eight writes below. -/
namespace AutoPR.Jobs
open UnitOfWork Transition

inductive RowWrite (cfg : Settings) (now : Nat) (row : PRJob) : PRJob → Prop where
  | claimPublish (job) (h : row.claimPublish now = some job) : RowWrite cfg now row job
  | confirm (copy msgId) : RowWrite cfg now row (row.confirm now copy msgId)
  | unclaim (copy exc) : RowWrite cfg now row (row.unclaim now copy exc)
  | escalate (copy) : RowWrite cfg now row (row.escalate now copy)
  | claim (stamp job) (h : row.claim cfg stamp = some job) : RowWrite cfg now row job
  | finish (copy) : RowWrite cfg now row (row.finish now copy)
  | release (stamp exc job) (h : row.release now stamp exc = some job) : RowWrite cfg now row job
  | recordError (copy exc) : RowWrite cfg now row (row.recordError now copy exc)

section
variable {cfg : Settings} {now : Nat} {row job : PRJob}

theorem RowWrite.frame (h : RowWrite cfg now row job) : job = { row with
    status := job.status
    attempts := job.attempts
    streamMsgId := job.streamMsgId
    lastError := job.lastError
    updatedAt := job.updatedAt } := by
  cases h with
  | claimPublish job h => rw [(PRJob.claimPublish_eq_some.mp h).2]
  | claim stamp job h => rw [(PRJob.claim_eq_some.mp h).2]
  | release stamp exc job h => rw [(PRJob.release_eq_some.mp h).2]
  | confirm | unclaim | escalate | finish | recordError => exact PRJob.flush_frame ..

theorem RowWrite.dedupKey (h : RowWrite cfg now row job) : job.dedupKey = row.dedupKey := by
  rw [h.frame]

theorem RowWrite.repo (h : RowWrite cfg now row job) : job.repo = row.repo := by
  rw [h.frame]

theorem RowWrite.installationId (h : RowWrite cfg now row job) :
    job.installationId = row.installationId := by
  rw [h.frame]

theorem RowWrite.createdAt (h : RowWrite cfg now row job) : job.createdAt = row.createdAt := by
  rw [h.frame]

end

theorem WorkerMove.write {cfg : Settings} {now : Nat} {row : Option PRJob} {pc : WorkerPc}
    {act : WorkerAct} {eff : WorkerEffect} {job : PRJob} (h : WorkerMove cfg now row pc act eff)
    (hw : eff.write = some job) : ∃ old, row = some old ∧ RowWrite cfg now old job := by
  cases h <;> simp only [reduceCtorEq, Option.some.injEq] at hw
  case escalate msg copy old hrow => exact ⟨old, hrow, hw ▸ .escalate copy⟩
  case claimWon msg copy stamp old new hrow hclaim =>
    exact ⟨old, hrow, hw ▸ .claim stamp new hclaim⟩
  case succeed msg copy stamp old summary hrow => exact ⟨old, hrow, hw ▸ .finish copy⟩
  case release msg copy stamp exc =>
    obtain ⟨old, hrow, hnew⟩ := Option.bind_eq_some_iff.mp hw
    exact ⟨old, hrow, .release stamp exc job hnew⟩
  case recordError msg copy exc cause =>
    obtain ⟨old, hrow, hnew⟩ := Option.map_eq_some_iff.mp hw
    exact ⟨old, hrow, hnew ▸ .recordError copy exc⟩

def WorkerAct.target : WorkerAct → Option JobStatus
  | .escalate => some .dead
  | .claim => some .processing
  | .succeed _ => some .done
  | .release | .recordError => some .queued
  | .read | .stampClaim | .raise _ | .ack | .ackRaise _ _ | .reload | .dbError _ | .crash => none

def PublisherAct.target : PublisherAct → Option JobStatus
  | .claim => some .queued
  | .unclaim => some .pending
  | _ => none

theorem WorkerMove.status {cfg : Settings} {now : Nat} {row : Option PRJob} {pc : WorkerPc}
    {act : WorkerAct} {eff : WorkerEffect} {job : PRJob} (h : WorkerMove cfg now row pc act eff)
    (hw : eff.write = some job) :
    ∃ old, row = some old ∧ (job.status = old.status ∨ act.target = some job.status) := by
  cases h <;> simp only [reduceCtorEq, Option.some.injEq] at hw
  case escalate msg copy old hrow =>
    refine ⟨old, hrow, ?_⟩
    rw [← hw, PRJob.escalate_status]
    exact (column_eq_or ..).imp id fun h => by rw [h]; rfl
  case succeed msg copy stamp old summary hrow =>
    refine ⟨old, hrow, ?_⟩
    rw [← hw, PRJob.finish_status]
    exact (column_eq_or ..).imp id fun h => by rw [h]; rfl
  case claimWon msg copy stamp old new hrow hclaim =>
    refine ⟨old, hrow, .inr ?_⟩
    rw [← hw, (PRJob.claim_eq_some.mp hclaim).2]
    rfl
  case release msg copy stamp exc =>
    obtain ⟨old, hrow, hnew⟩ := Option.bind_eq_some_iff.mp hw
    refine ⟨old, hrow, .inr ?_⟩
    rw [(PRJob.release_eq_some.mp hnew).2]
    rfl
  case recordError msg copy exc cause =>
    obtain ⟨old, hrow, hnew⟩ := Option.map_eq_some_iff.mp hw
    refine ⟨old, hrow, ?_⟩
    rw [← hnew, PRJob.recordError_status]
    exact (column_eq_or ..).imp id fun h => by rw [h]; rfl

theorem WorkerMove.message {cfg : Settings} {now : Nat} {row : Option PRJob} {pc : WorkerPc}
    {act : WorkerAct} {eff : WorkerEffect} {msg : StreamMessage} (h : WorkerMove cfg now row pc act eff)
    (hmsg : eff.pc.message = some msg) : pc.message = some msg := by
  cases h with
  | dbError pc msg' exc hpc => cases hpc <;> exact hmsg
  | ack | recordError | reloadMissing | reloadError | recordErrorError | crash => cases hmsg
  | _ => exact hmsg

theorem PublisherMove.write {cfg : Settings} {now : Nat} {jobs : JobTable} {nextId j : JobId}
    {nextEntry : EntryId} {p : PublisherId} {pc : PublisherPc}
    {act : PublisherAct} {eff : PublisherEffect} {job : PRJob}
    (h : PublisherMove cfg now jobs nextId nextEntry p pc act eff) (hw : eff.write = some (j, job)) :
    ∃ old, jobs j = some old ∧ RowWrite cfg now old job := by
  cases h <;> simp only [reduceCtorEq, Option.some.injEq, Prod.mk.injEq] at hw
  case claimWon j' caller old new hrow hclaim =>
    obtain ⟨rfl, rfl⟩ := hw
    exact ⟨old, hrow, .claimPublish _ hclaim⟩
  case confirm j' copy msgId caller =>
    obtain ⟨old, hrow, hnew⟩ := Option.map_eq_some_iff.mp hw
    cases hnew
    exact ⟨old, hrow, .confirm copy msgId⟩
  case unclaim j' copy exc =>
    obtain ⟨old, hrow, hnew⟩ := Option.map_eq_some_iff.mp hw
    cases hnew
    exact ⟨old, hrow, .unclaim copy exc⟩

theorem PublisherMove.status {cfg : Settings} {now : Nat} {jobs : JobTable} {nextId j : JobId}
    {nextEntry : EntryId} {p : PublisherId} {pc : PublisherPc} {act : PublisherAct}
    {eff : PublisherEffect} {job : PRJob}
    (h : PublisherMove cfg now jobs nextId nextEntry p pc act eff)
    (hw : eff.write = some (j, job)) :
    ∃ old, jobs j = some old ∧ (job.status = old.status ∨ act.target = some job.status) := by
  cases h <;> simp only [reduceCtorEq, Option.some.injEq, Prod.mk.injEq] at hw
  case claimWon i caller old new hrow hclaim =>
    obtain ⟨rfl, rfl⟩ := hw
    refine ⟨old, hrow, .inr ?_⟩
    rw [(PRJob.claimPublish_eq_some.mp hclaim).2]
    rfl
  case confirm i copy msgId caller =>
    obtain ⟨old, hrow, hnew⟩ := Option.map_eq_some_iff.mp hw
    cases hnew
    exact ⟨old, hrow, .inl (PRJob.confirm_status ..)⟩
  case unclaim i copy exc =>
    obtain ⟨old, hrow, hnew⟩ := Option.map_eq_some_iff.mp hw
    cases hnew
    refine ⟨old, hrow, ?_⟩
    rw [PRJob.unclaim_status]
    exact (column_eq_or ..).imp id fun h => by rw [h]; rfl

theorem PublisherMove.insert {cfg : Settings} {now : Nat} {jobs : JobTable} {nextId : JobId}
    {nextEntry : EntryId} {p : PublisherId} {pc : PublisherPc}
    {act : PublisherAct} {eff : PublisherEffect} {row : PRJob}
    (h : PublisherMove cfg now jobs nextId nextEntry p pc act eff) (hi : eff.insert = some row) :
    ∃ payload, pc = .inserting payload ∧ eff.pc = .selecting payload true ∧
      findJob jobs nextId (payload.dedupKey cfg.sha256) = none ∧
      row = payload.newJob cfg now ∧ eff.xadd = none ∧
      eff.events = [.inserted p nextId (payload.dedupKey cfg.sha256)] := by
  cases h <;> simp only [reduceCtorEq, Option.some.injEq] at hi
  case insertWon payload hfind => exact ⟨payload, rfl, rfl, hfind, hi.symm, rfl, rfl⟩

theorem PublisherMove.xadd {cfg : Settings} {now : Nat} {jobs : JobTable} {nextId : JobId}
    {nextEntry : EntryId} {p : PublisherId} {pc : PublisherPc}
    {act : PublisherAct} {eff : PublisherEffect}
    {msg : StreamMessage} (h : PublisherMove cfg now jobs nextId nextEntry p pc act eff)
    (hx : eff.xadd = some msg) :
    msg.id = nextEntry ∧ ∃ copy caller, pc = .publishing msg.jobId copy caller := by
  cases h <;> simp only [reduceCtorEq, Option.some.injEq] at hx
  case publishOk j copy caller _ => exact hx ▸ ⟨rfl, copy, caller, rfl⟩
  case publishLanded j copy caller _ _ => exact hx ▸ ⟨rfl, copy, caller, rfl⟩

section
variable (s : State) (w : WorkerId) (p : PublisherId) (msg : StreamMessage)
    (weff : WorkerEffect) (peff : PublisherEffect)

@[simp] theorem applyWorker_jobs :
    (s.applyWorker w msg weff).jobs = s.jobs.write msg.jobId weff.write := rfl

@[simp] theorem applyWorker_events :
    (s.applyWorker w msg weff).events = weff.events ++ s.events := rfl

@[simp] theorem applyWorker_publishers :
    (s.applyWorker w msg weff).publishers = s.publishers := rfl

@[simp] theorem applyWorker_nextId : (s.applyWorker w msg weff).nextId = s.nextId := rfl

@[simp] theorem applyWorker_nextEntry : (s.applyWorker w msg weff).nextEntry = s.nextEntry := rfl

@[simp] theorem applyWorker_self : (s.applyWorker w msg weff).workers w = weff.pc := by
  simp [State.applyWorker]

theorem applyWorker_of_ne {w' : WorkerId} (h : w' ≠ w) :
    (s.applyWorker w msg weff).workers w' = s.workers w' := by
  simp [State.applyWorker, h]

@[simp] theorem applyPublisher_events :
    (s.applyPublisher p peff).events = peff.events ++ s.events := rfl

@[simp] theorem applyPublisher_workers : (s.applyPublisher p peff).workers = s.workers := rfl

@[simp] theorem applyPublisher_results : (s.applyPublisher p peff).results = s.results := rfl

@[simp] theorem applyPublisher_self : (s.applyPublisher p peff).publishers p = peff.pc := by
  simp [State.applyPublisher]

theorem applyPublisher_of_ne {p' : PublisherId} (h : p' ≠ p) :
    (s.applyPublisher p peff).publishers p' = s.publishers p' := by
  simp [State.applyPublisher, h]

end

/-- A step of the clock or of the stream touches neither tables nor publishers. -/
structure Quiet (s t : State) : Prop where
  jobs : t.jobs = s.jobs
  nextId : t.nextId = s.nextId
  results : t.results = s.results
  nextEntry : t.nextEntry = s.nextEntry
  publishers : t.publishers = s.publishers
  events : t.events = s.events

theorem step_cases {cfg : Settings} {s t : State} {a : Action} (h : step cfg s a = some t) :
    Quiet s t ∨
    (∃ w act msg eff, a = .worker w act ∧ (s.workers w).message = some msg ∧
      WorkerMove cfg s.now (s.jobs msg.jobId) (s.workers w) act eff ∧ t = s.applyWorker w msg eff) ∨
    ∃ p act eff, a = .publisher p act ∧
      PublisherMove cfg s.now s.jobs s.nextId s.nextEntry p (s.publishers p) act eff ∧
      t = s.applyPublisher p eff := by
  cases a with
  | tick elapsed =>
    cases h
    exact .inl ⟨rfl, rfl, rfl, rfl, rfl, rfl⟩
  | consume w =>
    obtain ⟨entry, -, -, rfl⟩ := step_consume h
    exact .inl ⟨rfl, rfl, rfl, rfl, rfl, rfl⟩
  | reclaim w e =>
    obtain ⟨entry, _, -, -, -, -, -, rfl⟩ := step_reclaim h
    exact .inl ⟨rfl, rfl, rfl, rfl, rfl, rfl⟩
  | worker w act =>
    obtain ⟨msg, eff, hstep⟩ := step_worker h
    exact .inr (.inl ⟨w, act, msg, eff, rfl, hstep⟩)
  | publisher p act =>
    obtain ⟨eff, hstep⟩ := step_publisher h
    exact .inr (.inr ⟨p, act, eff, rfl, hstep⟩)

/-- Where a handling is after a step: where it was, handed an entry, or moved on by
its own statement. -/
theorem step_workers {cfg : Settings} {s t : State} {a : Action} (h : step cfg s a = some t)
    (w : WorkerId) :
    t.workers w = s.workers w ∨
    (∃ e entry, s.stream e = some entry ∧ t.workers w = .received entry.message) ∨
    ∃ act msg eff, a = .worker w act ∧ (s.workers w).message = some msg ∧
      WorkerMove cfg s.now (s.jobs msg.jobId) (s.workers w) act eff ∧ t = s.applyWorker w msg eff := by
  cases a with
  | tick elapsed =>
    cases h
    exact .inl rfl
  | publisher p act =>
    obtain ⟨eff, -, rfl⟩ := step_publisher h
    exact .inl rfl
  | consume w' =>
    obtain ⟨entry, -, hentry, rfl⟩ := step_consume h
    by_cases hw : w = w'
    · exact .inr (.inl ⟨_, entry, hentry, by simp [State.deliver, hw]⟩)
    · exact .inl (by simp [State.deliver, hw])
  | reclaim w' e =>
    obtain ⟨entry, _, -, hentry, -, -, -, rfl⟩ := step_reclaim h
    by_cases hw : w = w'
    · exact .inr (.inl ⟨e, entry, hentry, by simp [State.deliver, hw]⟩)
    · exact .inl (by simp [State.deliver, hw])
  | worker w' act =>
    obtain ⟨msg, eff, hmsg, hmove, rfl⟩ := step_worker h
    by_cases hw : w = w'
    · subst hw
      exact .inr (.inr ⟨act, msg, eff, rfl, hmsg, hmove, rfl⟩)
    · exact .inl (applyWorker_of_ne _ _ _ _ hw)

def Action.publisher? : Action → Option PublisherId
  | .publisher p _ => some p
  | _ => none

theorem step_publisher_of_ne {cfg : Settings} {s t : State} {a : Action}
    (h : step cfg s a = some t) {p : PublisherId} (hp : a.publisher? ≠ some p) :
    t.publishers p = s.publishers p := by
  obtain hquiet | ⟨w, act, msg, eff, -, -, -, rfl⟩ | ⟨p', act, eff, rfl, -, rfl⟩ := step_cases h
  · rw [hquiet.publishers]
  · rfl
  · refine applyPublisher_of_ne _ _ _ fun heq => hp ?_
    rw [heq]
    rfl

theorem after_idle {cfg : Settings} {acts : List Action}
    (h : ((pipeline cfg).exec acts (pipeline cfg).init).isSome) {p : PublisherId}
    (hp : ∀ a ∈ acts, a.publisher? ≠ some p) :
    ((pipeline cfg).after acts h).publishers p = .idle := by
  have hrun : ∀ acts s t, (∀ a ∈ acts, a.publisher? ≠ some p) →
      (pipeline cfg).exec acts s = some t → t.publishers p = s.publishers p := by
    intro acts
    induction acts with
    | nil =>
      intro s t _ hexec
      cases hexec
      rfl
    | cons a rest ih =>
      intro s t hne hexec
      obtain ⟨u, hu, hrest⟩ := Option.bind_eq_some_iff.mp hexec
      rw [ih u t (fun b hb => hne b (List.mem_cons_of_mem a hb)) hrest]
      exact step_publisher_of_ne hu (hne a List.mem_cons_self)
  exact hrun acts _ _ hp (Option.some_get h).symm

theorem applyWorker_row (s : State) (w : WorkerId) (msg : StreamMessage) (eff : WorkerEffect)
    (j : JobId) :
    (s.applyWorker w msg eff).jobs j = s.jobs j ∨
    ∃ job, j = msg.jobId ∧ eff.write = some job ∧ (s.applyWorker w msg eff).jobs j = some job := by
  cases hw : eff.write with
  | none => exact .inl (by simp [hw])
  | some job =>
    by_cases hj : j = msg.jobId
    · exact .inr ⟨job, hj, rfl, by simp [hj, hw]⟩
    · exact .inl (by simp [Table.write_of_ne _ _ hj])

theorem applyPublisher_row {cfg : Settings} {s : State} {p : PublisherId} {act : PublisherAct}
    {eff : PublisherEffect}
    (h : PublisherMove cfg s.now s.jobs s.nextId s.nextEntry p (s.publishers p) act eff) (j : JobId) :
    (s.applyPublisher p eff).jobs j = s.jobs j ∨
    (∃ payload : PRPayload, j = s.nextId ∧ (s.applyPublisher p eff).nextId = s.nextId + 1 ∧
      (s.applyPublisher p eff).jobs j = some (payload.newJob cfg s.now) ∧
      findJob s.jobs s.nextId (payload.dedupKey cfg.sha256) = none ∧
      s.publishers p = .inserting payload) ∨
    ∃ job, eff.write = some (j, job) ∧ (s.applyPublisher p eff).jobs j = some job := by
  cases hi : eff.insert with
  | some row =>
    by_cases hj : j = s.nextId
    · subst hj
      obtain ⟨payload, hpc, -, hfind, rfl, -, -⟩ := h.insert hi
      refine .inr (.inl ⟨payload, rfl, ?_, ?_, hfind, hpc⟩) <;> simp [State.applyPublisher, hi]
    · exact .inl (by simp [State.applyPublisher, hi, Table.write_of_ne _ _ hj])
  | none =>
    cases hw : eff.write with
    | none => exact .inl (by simp [State.applyPublisher, hi, hw])
    | some target =>
      obtain ⟨i, job⟩ := target
      by_cases hj : j = i
      · subst hj
        exact .inr (.inr ⟨job, rfl, by simp [State.applyPublisher, hi, hw]⟩)
      · exact .inl (by simp [State.applyPublisher, hi, hw, Table.write_of_ne _ _ hj])

theorem step_jobs {cfg : Settings} {s t : State} {a : Action} (h : step cfg s a = some t)
    (j : JobId) :
    t.jobs j = s.jobs j ∨
    (j = s.nextId ∧ t.nextId = s.nextId + 1 ∧
      ∃ payload : PRPayload, t.jobs j = some (payload.newJob cfg s.now) ∧
        findJob s.jobs s.nextId (payload.dedupKey cfg.sha256) = none ∧
        ∃ p, s.publishers p = .inserting payload) ∨
    ∃ row job, s.jobs j = some row ∧ t.jobs j = some job ∧ RowWrite cfg s.now row job := by
  obtain hquiet | ⟨w, act, msg, eff, -, -, hmove, rfl⟩ | ⟨p, act, eff, -, hmove, rfl⟩ :=
    step_cases h
  · exact .inl (by rw [hquiet.jobs])
  · obtain hsame | ⟨job, rfl, hw, hnew⟩ := applyWorker_row s w msg eff j
    · exact .inl hsame
    · obtain ⟨row, hrow, hwrite⟩ := hmove.write hw
      exact .inr (.inr ⟨row, job, hrow, hnew, hwrite⟩)
  · obtain hsame | ⟨payload, hj, hnext, hnew, hfind, hpc⟩ | ⟨job, hw, hnew⟩ :=
      applyPublisher_row hmove j
    · exact .inl hsame
    · exact .inr (.inl ⟨hj, hnext, payload, hnew, hfind, p, hpc⟩)
    · obtain ⟨row, hrow, hwrite⟩ := hmove.write hw
      exact .inr (.inr ⟨row, job, hrow, hnew, hwrite⟩)

theorem step_stream {cfg : Settings} {s t : State} {a : Action} (h : step cfg s a = some t)
    (e : EntryId) :
    t.stream e = s.stream e ∨
    (∃ entry entry', s.stream e = some entry ∧ t.stream e = some entry' ∧
      entry'.message = entry.message ∧ (entry.acked = true → entry'.acked = true)) ∨
    (e = s.nextEntry ∧ t.nextEntry = s.nextEntry + 1 ∧ ∃ msg p copy caller,
      t.stream e = some { message := msg } ∧ msg.id = e ∧
        s.publishers p = .publishing msg.jobId copy caller) := by
  cases a with
  | tick elapsed =>
    cases h
    exact .inl rfl
  | consume w =>
    obtain ⟨entry, -, hentry, rfl⟩ := step_consume h
    by_cases he : e = s.cursor
    · subst he
      exact .inr (.inl ⟨entry, _, hentry, Table.write_self .., rfl, id⟩)
    · exact .inl (by simp [State.deliver, Table.write_of_ne _ _ he])
  | reclaim w e' =>
    obtain ⟨entry, _, -, hentry, -, -, -, rfl⟩ := step_reclaim h
    by_cases he : e = e'
    · subst he
      exact .inr (.inl ⟨entry, _, hentry, Table.write_self .., rfl, id⟩)
    · exact .inl (by simp [State.deliver, Table.write_of_ne _ _ he])
  | worker w act =>
    obtain ⟨msg, eff, -, -, rfl⟩ := step_worker h
    cases hack : eff.ack with
    | false => exact .inl (by simp [State.applyWorker, hack])
    | true =>
      by_cases he : e = msg.id
      · subst he
        cases hentry : s.stream msg.id with
        | none => exact .inl (by simp [State.applyWorker, hack, State.ack, hentry])
        | some entry =>
          refine .inr (.inl ⟨entry, { entry with acked := true }, rfl, ?_, rfl, fun _ => rfl⟩)
          simp [State.applyWorker, hack, State.ack, hentry]
      · exact .inl (by simp [State.applyWorker, hack, State.ack, Table.write_of_ne _ _ he])
  | publisher p act =>
    obtain ⟨eff, hmove, rfl⟩ := step_publisher h
    cases hx : eff.xadd with
    | none => exact .inl (by simp [State.applyPublisher, hx])
    | some msg =>
      obtain ⟨hid, copy, caller, hpc⟩ := hmove.xadd hx
      by_cases he : e = s.nextEntry
      · refine .inr (.inr ⟨he, by simp [State.applyPublisher, hx], msg, p, copy, caller, ?_⟩)
        exact ⟨by simp [State.applyPublisher, hx, he], hid.trans he.symm, hpc⟩
      · exact .inl (by simp [State.applyPublisher, hx, Table.write_of_ne _ _ he])

theorem step_nextId {cfg : Settings} {s t : State} {a : Action} (h : step cfg s a = some t) :
    s.nextId ≤ t.nextId := by
  obtain hquiet | ⟨w, act, msg, eff, -, -, -, rfl⟩ | ⟨p, act, eff, -, -, rfl⟩ := step_cases h
  · exact Nat.le_of_eq hquiet.nextId.symm
  · exact Nat.le_refl _
  · simp only [State.applyPublisher]
    split
    · exact Nat.le_succ _
    · exact Nat.le_refl _

theorem step_nextEntry {cfg : Settings} {s t : State} {a : Action} (h : step cfg s a = some t) :
    s.nextEntry ≤ t.nextEntry := by
  obtain hquiet | ⟨w, act, msg, eff, -, -, -, rfl⟩ | ⟨p, act, eff, -, -, rfl⟩ := step_cases h
  · exact Nat.le_of_eq hquiet.nextEntry.symm
  · exact Nat.le_refl _
  · simp only [State.applyPublisher]
    split
    · exact Nat.le_succ _
    · exact Nat.le_refl _

def Caller.todo : Caller → List JobId
  | .ingest _ => []
  | .reconcile todo _ => todo

/-- The jobs a publisher call refers to. -/
def PublisherPc.jobs : PublisherPc → List JobId
  | .sweeping todo _ => todo
  | .claiming j caller | .refreshing j caller | .publishing j _ caller
  | .confirming j _ _ caller => j :: caller.todo
  | .unclaiming j _ _ | .returned j _ => [j]
  | .idle | .inserting _ | .selecting _ _ | .swept _ | .raised | .crashed => []

theorem Caller.resume_jobs {caller : Caller} {j i : JobId} {published : Bool}
    (h : i ∈ (caller.resume j published).jobs) : i ∈ j :: caller.todo := by
  cases caller with
  | ingest created => exact h
  | reconcile todo count => exact List.mem_cons_of_mem j h

theorem PublisherMove.jobs {cfg : Settings} {now : Nat} {jobs : JobTable} {nextId j : JobId}
    {nextEntry : EntryId} {p : PublisherId} {pc : PublisherPc}
    {act : PublisherAct} {eff : PublisherEffect}
    (h : PublisherMove cfg now jobs nextId nextEntry p pc act eff) (hj : j ∈ eff.pc.jobs) :
    j ∈ pc.jobs ∨ ∃ row, jobs j = some row := by
  cases h with
  | startReconcile =>
    obtain ⟨-, row, hrow, -⟩ := mem_pendingJobs.mp hj
    exact .inr ⟨row, hrow⟩
  | select payload created i hfind =>
    obtain ⟨row, hrow, -⟩ := findJob_eq_some hfind
    cases List.mem_singleton.mp hj
    exact .inr ⟨row, hrow⟩
  | selectDuplicate payload i row hfind hrow =>
    cases List.mem_singleton.mp hj
    exact .inr ⟨row, hrow⟩
  | claimLost i caller => exact .inl (Caller.resume_jobs hj)
  | confirm i copy msgId caller => exact .inl (Caller.resume_jobs hj)
  | publishLanded i copy caller | publishFailed i copy caller =>
    cases List.mem_singleton.mp hj
    exact .inl List.mem_cons_self
  | startIngest | insertLost | insertWon | nextDone | unclaim | selectMissing | refreshMissing
  | crash => cases hj
  | nextJob | claimWon | refresh | publishOk => exact .inl hj

structure WellFormed (s : State) : Prop where
  jobs_lt : ∀ j row, s.jobs j = some row → j < s.nextId
  stream_lt : ∀ e entry, s.stream e = some entry → e < s.nextEntry
  stream_job : ∀ e entry, s.stream e = some entry →
    entry.message.id = e ∧ ∃ row, s.jobs entry.message.jobId = some row
  worker_entry : ∀ w msg, (s.workers w).message = some msg →
    ∃ entry, s.stream msg.id = some entry ∧ entry.message = msg
  publisher_job : ∀ p, ∀ j ∈ (s.publishers p).jobs, ∃ row, s.jobs j = some row

section
variable {cfg : Settings} {s t : State} {a : Action}

theorem WellFormed.jobs_nextId (hwf : WellFormed s) : s.jobs s.nextId = none := by
  cases hrow : s.jobs s.nextId with
  | none => rfl
  | some row => exact absurd (hwf.jobs_lt _ row hrow) (Nat.lt_irrefl _)

theorem WellFormed.jobs_persist (hwf : WellFormed s) (h : step cfg s a = some t) {j : JobId}
    {row : PRJob} (hrow : s.jobs j = some row) :
    ∃ job, t.jobs j = some job ∧ job.dedupKey = row.dedupKey := by
  obtain hsame | ⟨rfl, -⟩ | ⟨old, job, hold, hjob, hwrite⟩ := step_jobs h j
  · exact ⟨row, hsame ▸ hrow, rfl⟩
  · simp [hwf.jobs_nextId] at hrow
  · cases hold.symm.trans hrow
    exact ⟨job, hjob, hwrite.dedupKey⟩

theorem WellFormed.stream_persist (hwf : WellFormed s) (h : step cfg s a = some t) {e : EntryId}
    {entry : StreamEntry} (hentry : s.stream e = some entry) :
    ∃ entry', t.stream e = some entry' ∧ entry'.message = entry.message := by
  obtain hsame | ⟨old, entry', hold, hnew, hmsg, -⟩ | ⟨rfl, -⟩ := step_stream h e
  · exact ⟨entry, hsame ▸ hentry, rfl⟩
  · cases hold.symm.trans hentry
    exact ⟨entry', hnew, hmsg⟩
  · exact absurd (hwf.stream_lt _ entry hentry) (Nat.lt_irrefl _)

theorem WellFormed.message_persist (hwf : WellFormed s) (h : step cfg s a = some t)
    {msg : StreamMessage} (hmsg : ∃ entry, s.stream msg.id = some entry ∧ entry.message = msg) :
    ∃ entry, t.stream msg.id = some entry ∧ entry.message = msg := by
  obtain ⟨entry, hentry, heq⟩ := hmsg
  obtain ⟨entry', hentry', heq'⟩ := hwf.stream_persist h hentry
  exact ⟨entry', hentry', heq'.trans heq⟩

theorem WellFormed.initial : WellFormed State.initial where
  jobs_lt _ _ h := by cases h
  stream_lt _ _ h := by cases h
  stream_job _ _ h := by cases h
  worker_entry _ _ h := by cases h
  publisher_job _ _ h := by cases h

theorem WellFormed.step_worker_entry (hwf : WellFormed s) (h : step cfg s a = some t)
    (w : WorkerId) (msg : StreamMessage) (hmsg : (t.workers w).message = some msg) :
    ∃ entry, t.stream msg.id = some entry ∧ entry.message = msg := by
  apply hwf.message_persist h
  obtain hsame | ⟨e, entry, hentry, hpc⟩ | ⟨act, msg', eff, -, -, hmove, rfl⟩ := step_workers h w
  · exact hwf.worker_entry w msg (hsame ▸ hmsg)
  · rw [hpc] at hmsg
    obtain rfl : entry.message = msg := Option.some.inj hmsg
    obtain ⟨hid, -⟩ := hwf.stream_job e entry hentry
    exact ⟨entry, hid ▸ hentry, rfl⟩
  · rw [applyWorker_self] at hmsg
    exact hwf.worker_entry w msg (hmove.message hmsg)

theorem WellFormed.step_publisher_job (hwf : WellFormed s) (h : step cfg s a = some t)
    (p : PublisherId) (j : JobId) (hj : j ∈ (t.publishers p).jobs) :
    ∃ row, t.jobs j = some row := by
  have hold : ∃ row, s.jobs j = some row := by
    obtain hquiet | ⟨w, act, msg, eff, -, -, -, rfl⟩ | ⟨p', act, eff, -, hmove, rfl⟩ := step_cases h
    · rw [hquiet.publishers] at hj
      exact hwf.publisher_job p j hj
    · exact hwf.publisher_job p j hj
    · by_cases hp : p = p'
      · subst hp
        rw [applyPublisher_self] at hj
        exact (hmove.jobs hj).elim (hwf.publisher_job p j) id
      · rw [applyPublisher_of_ne _ _ _ hp] at hj
        exact hwf.publisher_job p j hj
  obtain ⟨row, hrow⟩ := hold
  obtain ⟨job, hjob, -⟩ := hwf.jobs_persist h hrow
  exact ⟨job, hjob⟩

theorem WellFormed.step_stream_job (hwf : WellFormed s) (h : step cfg s a = some t)
    (e : EntryId) (entry : StreamEntry) (hentry : t.stream e = some entry) :
    entry.message.id = e ∧ ∃ row, t.jobs entry.message.jobId = some row := by
  have hold : entry.message.id = e ∧ ∃ row, s.jobs entry.message.jobId = some row := by
    obtain hsame | ⟨old, new, hold, hnew, hmsg, -⟩ | ⟨-, -, msg, p, copy, caller, hnew, hid, hpc⟩ :=
      step_stream h e
    · exact hwf.stream_job e entry (hsame ▸ hentry)
    · cases hnew.symm.trans hentry
      exact hmsg ▸ hwf.stream_job e old hold
    · cases hnew.symm.trans hentry
      exact ⟨hid, hwf.publisher_job p msg.jobId (by simp [hpc, PublisherPc.jobs])⟩
  obtain ⟨hid, row, hrow⟩ := hold
  obtain ⟨job, hjob, -⟩ := hwf.jobs_persist h hrow
  exact ⟨hid, job, hjob⟩

theorem WellFormed.step (hwf : WellFormed s) (h : step cfg s a = some t) : WellFormed t where
  jobs_lt j row hrow := by
    have hmono := step_nextId h
    obtain hsame | ⟨rfl, hnext, -⟩ | ⟨old, job, hold, -⟩ := step_jobs h j
    · exact Nat.lt_of_lt_of_le (hwf.jobs_lt j row (hsame ▸ hrow)) hmono
    · exact hnext ▸ Nat.lt_succ_self _
    · exact Nat.lt_of_lt_of_le (hwf.jobs_lt j old hold) hmono
  stream_lt e entry hentry := by
    have hmono := step_nextEntry h
    obtain hsame | ⟨old, new, hold, -⟩ | ⟨rfl, hnext, -⟩ := step_stream h e
    · exact Nat.lt_of_lt_of_le (hwf.stream_lt e entry (hsame ▸ hentry)) hmono
    · exact Nat.lt_of_lt_of_le (hwf.stream_lt e old hold) hmono
    · exact hnext ▸ Nat.lt_succ_self _
  stream_job := hwf.step_stream_job h
  worker_entry := hwf.step_worker_entry h
  publisher_job := hwf.step_publisher_job h

end

theorem Reachable.wellFormed {cfg : Settings} {ok : State → Action → Prop} {s : State}
    (h : (pipeline cfg).Reachable ok s) : WellFormed s :=
  Reachable.invariant (J := fun _ => True) (fun _ _ => trivial) WellFormed.initial
    (fun _ _ _ _ _ hstep hwf => hwf.step hstep) h

end AutoPR.Jobs
