import AutoPR.Jobs.Invariant

/-! Attempts. The column counts the claims won, which are the handler starts. The
cap is read before the claim that increments it, so it bounds the starts only
where a claim still finds the row below it. -/
namespace AutoPR.Jobs
open UnitOfWork Transition

def Event.starts (j : JobId) : Event → Bool
  | .started i _ => i = j
  | _ => false

/-- How often the handler was started for a job. -/
def State.starts (s : State) (j : JobId) : Nat := s.events.countP (Event.starts j)

theorem starts_append {s t : State} {new : List Event} (h : t.events = new ++ s.events)
    (j : JobId) : t.starts j = new.countP (Event.starts j) + s.starts j := by
  simp [State.starts, h]

theorem WorkerMove.starts {cfg : Settings} {now : Nat} {row : Option PRJob} {pc : WorkerPc}
    {act : WorkerAct} {eff : WorkerEffect} {msg : StreamMessage}
    (h : WorkerMove cfg now row pc act eff) (hmsg : pc.message = some msg) :
    (∃ copy stamp old job, pc = .stamped msg copy stamp ∧ act = .claim ∧ row = some old ∧
      old.claim cfg stamp = some job ∧ eff.write = some job ∧
      eff.events = [.started msg.jobId msg.id]) ∨
    ((∀ j, eff.events.countP (Event.starts j) = 0) ∧
      ∀ job, eff.write = some job → ∃ old, row = some old ∧ job.attempts = old.attempts) := by
  cases h with
  | claimWon msg' copy stamp old job hrow hclaim =>
    cases hmsg
    exact .inl ⟨copy, stamp, old, job, rfl, rfl, hrow, hclaim, rfl, rfl⟩
  | escalate msg' copy old hrow =>
    refine .inr ⟨fun _ => rfl, fun job hw => ?_⟩
    cases hw
    exact ⟨old, hrow, PRJob.flush_attempts ..⟩
  | succeed msg' copy stamp old summary hrow =>
    refine .inr ⟨fun _ => rfl, fun job hw => ?_⟩
    cases hw
    exact ⟨old, hrow, PRJob.flush_attempts ..⟩
  | release msg' copy stamp exc =>
    refine .inr ⟨fun _ => rfl, fun job hw => ?_⟩
    obtain ⟨old, hrow, hnew⟩ := Option.bind_eq_some_iff.mp hw
    exact ⟨old, hrow, by rw [(PRJob.release_eq_some.mp hnew).2]⟩
  | recordError msg' copy exc cause =>
    refine .inr ⟨fun _ => rfl, fun job hw => ?_⟩
    obtain ⟨old, hrow, hnew⟩ := Option.map_eq_some_iff.mp hw
    exact ⟨old, hrow, hnew ▸ PRJob.flush_attempts ..⟩
  | _ => exact .inr ⟨fun _ => rfl, fun _ hw => by cases hw⟩

theorem PublisherMove.starts {cfg : Settings} {now : Nat} {jobs : JobTable} {nextId : JobId}
    {nextEntry : EntryId} {p : PublisherId} {pc : PublisherPc} {act : PublisherAct}
    {eff : PublisherEffect} (h : PublisherMove cfg now jobs nextId nextEntry p pc act eff) :
    (∀ j, eff.events.countP (Event.starts j) = 0) ∧
      ∀ j job, eff.write = some (j, job) →
        ∃ old, jobs j = some old ∧ job.attempts = old.attempts := by
  refine ⟨fun j => by cases h <;> rfl, fun j job hw => ?_⟩
  cases h <;> simp only [reduceCtorEq, Option.some.injEq, Prod.mk.injEq] at hw
  case claimWon i caller old new hrow hclaim =>
    obtain ⟨rfl, rfl⟩ := hw
    exact ⟨old, hrow, by rw [(PRJob.claimPublish_eq_some.mp hclaim).2]⟩
  case confirm i copy msgId caller =>
    obtain ⟨old, hrow, hnew⟩ := Option.map_eq_some_iff.mp hw
    cases hnew
    exact ⟨old, hrow, PRJob.flush_attempts ..⟩
  case unclaim i copy exc =>
    obtain ⟨old, hrow, hnew⟩ := Option.map_eq_some_iff.mp hw
    cases hnew
    exact ⟨old, hrow, PRJob.flush_attempts ..⟩

/-- Over one step the count of a job and its column stay, unless a claim of the
job is won. -/
theorem step_starts {cfg : Settings} {s t : State} {a : Action} (h : step cfg s a = some t)
    (j : JobId) :
    (∃ w msg copy stamp row job, a = .worker w .claim ∧ s.workers w = .stamped msg copy stamp ∧
      msg.jobId = j ∧ s.jobs j = some row ∧ row.claim cfg stamp = some job ∧
      t.jobs j = some job ∧ t.starts j = s.starts j + 1) ∨
    (t.starts j = s.starts j ∧ (t.jobs j = s.jobs j ∨
      (j = s.nextId ∧ ∃ job, t.jobs j = some job ∧ job.attempts = 0) ∨
      ∃ row job, s.jobs j = some row ∧ t.jobs j = some job ∧ job.attempts = row.attempts)) := by
  obtain hquiet | ⟨w, act, msg, eff, rfl, hmsg, hmove, rfl⟩ | ⟨p, act, eff, rfl, hmove, rfl⟩ :=
    step_cases h
  · refine .inr ⟨?_, .inl (by rw [hquiet.jobs])⟩
    simp only [State.starts, hquiet.events]
  · have hcount := starts_append (applyWorker_events s w msg eff) j
    have hrow := applyWorker_row s w msg eff j
    obtain ⟨copy, stamp, old, job, hpc, rfl, hold, hclaim, hw, hev⟩ | ⟨hnone, hkeep⟩ :=
      hmove.starts hmsg
    · by_cases hj : msg.jobId = j
      · subst hj
        refine .inl ⟨w, msg, copy, stamp, old, job, rfl, hpc, rfl, hold, hclaim, by simp [hw], ?_⟩
        rw [hcount, hev, Nat.add_comm]
        simp [Event.starts]
      · refine .inr ⟨by simp [hcount, hev, Event.starts, hj], ?_⟩
        obtain hsame | ⟨_, heq, _⟩ := hrow
        · exact .inl hsame
        · exact absurd heq.symm hj
    · refine .inr ⟨by rw [hcount, hnone, Nat.zero_add], ?_⟩
      obtain hsame | ⟨job, rfl, hw, hnew⟩ := hrow
      · exact .inl hsame
      · obtain ⟨old, hold, heq⟩ := hkeep job hw
        exact .inr (.inr ⟨old, job, hold, hnew, heq⟩)
  · have hcount := starts_append (applyPublisher_events s p eff) j
    obtain ⟨hnone, hkeep⟩ := hmove.starts
    refine .inr ⟨by rw [hcount, hnone, Nat.zero_add], ?_⟩
    obtain hsame | ⟨payload, hj, -, hnew, -⟩ | ⟨job, hw, hnew⟩ := applyPublisher_row hmove j
    · exact .inl hsame
    · exact .inr (.inl ⟨hj, _, hnew, rfl⟩)
    · obtain ⟨old, hold, heq⟩ := hkeep j job hw
      exact .inr (.inr ⟨old, job, hold, hnew, heq⟩)

structure Counted (cfg : Settings) (s : State) : Prop where
  attempts_eq : ∀ j row, s.jobs j = some row → row.attempts = s.starts j
  starts_none : ∀ j, s.jobs j = none → s.starts j = 0
  escalating_le : ∀ w msg copy, s.workers w = .escalating msg copy →
    cfg.maxAttempts ≤ s.starts msg.jobId

theorem starts_mono {cfg : Settings} {s t : State} {a : Action} (h : step cfg s a = some t)
    (j : JobId) : s.starts j ≤ t.starts j := by
  obtain ⟨_, _, _, _, _, _, -, -, -, -, -, -, hcount⟩ | ⟨hcount, -⟩ := step_starts h j
  · rw [hcount]
    exact Nat.le_succ _
  · exact Nat.le_of_eq hcount.symm

theorem step_escalating {cfg : Settings} {s t : State} {a : Action} (h : step cfg s a = some t)
    {w : WorkerId} {msg : StreamMessage} {copy : PRJob}
    (hpc : t.workers w = .escalating msg copy) :
    s.workers w = .escalating msg copy ∨
      (s.jobs msg.jobId = some copy ∧ cfg.maxAttempts ≤ copy.attempts ∧
        copy.status.terminal = false) := by
  obtain hsame | ⟨e, entry, -, hnew⟩ | ⟨act, msg', eff, -, hmsg, hmove, rfl⟩ := step_workers h w
  · exact .inl (hsame ▸ hpc)
  · cases hnew.symm.trans hpc
  · rw [applyWorker_self] at hpc
    generalize s.workers w = pc at hmsg hmove
    cases hmove with
    | readExhausted m job hrow ht hcap =>
      cases hpc
      cases hmsg
      exact .inr ⟨hrow, hcap, ht⟩
    | _ => cases hpc

theorem Counted.initial (cfg : Settings) : Counted cfg State.initial where
  attempts_eq _ _ hrow := by cases hrow
  starts_none _ _ := rfl
  escalating_le _ _ _ hpc := by cases hpc

theorem Counted.step {cfg : Settings} {s t : State} {a : Action} (hwf : WellFormed s)
    (h : step cfg s a = some t) (hs : Counted cfg s) : Counted cfg t where
  attempts_eq j job hjob := by
    obtain ⟨_, _, _, stamp, row, new, -, -, -, hrow, hclaim, hnew, hcount⟩ | ⟨hcount, hrow⟩ :=
      step_starts h j
    · cases hnew.symm.trans hjob
      rw [hcount, ← hs.attempts_eq j row hrow, (PRJob.claim_eq_some.mp hclaim).2]
    · rw [hcount]
      obtain hsame | ⟨rfl, new, hnew, hzero⟩ | ⟨row, new, hrow, hnew, heq⟩ := hrow
      · exact hs.attempts_eq j job (hsame ▸ hjob)
      · cases hnew.symm.trans hjob
        rw [hzero, hs.starts_none _ hwf.jobs_nextId]
      · cases hnew.symm.trans hjob
        rw [heq, hs.attempts_eq j row hrow]
  starts_none j hnone := by
    obtain ⟨_, _, _, _, _, _, -, -, -, -, -, hnew, -⟩ | ⟨hcount, hrow⟩ := step_starts h j
    · cases hnew.symm.trans hnone
    · obtain hsame | ⟨-, _, hnew, -⟩ | ⟨_, _, -, hnew, -⟩ := hrow
      · rw [hcount]
        exact hs.starts_none j (hsame ▸ hnone)
      · cases hnew.symm.trans hnone
      · cases hnew.symm.trans hnone
  escalating_le w msg copy hpc := by
    apply Nat.le_trans _ (starts_mono h msg.jobId)
    obtain hold | ⟨hrow, hcap, -⟩ := step_escalating h hpc
    · exact hs.escalating_le w msg copy hold
    · rw [← hs.attempts_eq _ copy hrow]
      exact hcap

theorem Reachable.counted {cfg : Settings} {ok : State → Action → Prop} {s : State}
    (h : (pipeline cfg).Reachable ok s) : Counted cfg s :=
  Reachable.invariant (fun _ => Reachable.wellFormed) (Counted.initial cfg)
    (fun _ _ _ hwf _ hstep hs => hs.step hwf hstep) h

/-- The handler is running under a lease that has not ended: the row is PROCESSING
and carries the worker's own stamp. -/
def State.live (cfg : Settings) (s : State) (w : WorkerId) (j : JobId) : Bool :=
  match s.workers w with
  | .running msg _ stamp =>
      msg.jobId = j && (s.jobs j).any fun row => row.updatedAt = stamp && row.leased cfg s.now
  | _ => false

theorem live_leased {cfg : Settings} {s : State} {w : WorkerId} {j : JobId}
    (h : s.live cfg w j = true) :
    ∃ msg copy row, s.workers w = .running msg copy row.updatedAt ∧ msg.jobId = j ∧
      s.jobs j = some row ∧ row.leased cfg s.now = true := by
  unfold State.live at h
  split at h
  · rename_i msg copy stamp hpc
    rw [Bool.and_eq_true, decide_eq_true_eq, Option.any_eq_true] at h
    obtain ⟨hj, row, hrow, hlease⟩ := h
    rw [Bool.and_eq_true, decide_eq_true_eq] at hlease
    exact ⟨msg, copy, row, hlease.1 ▸ hpc, hj, hrow, hlease.2⟩
  · cases h

/-- A claim is taken below the cap, and no escalation meets a lease. -/
def capChecked (cfg : Settings) (s : State) : Action → Bool
  | .worker w .claim =>
      match s.workers w with
      | .stamped msg _ stamp => (s.jobs msg.jobId).all fun row =>
          !row.claimable cfg stamp || decide (row.attempts < cfg.maxAttempts)
      | _ => true
  | .worker w .escalate =>
      match s.workers w with
      | .escalating msg _ => (s.jobs msg.jobId).all fun row => !row.leased cfg s.now
      | _ => true
  | _ => true

theorem starts_le {cfg : Settings} {s : State}
    (h : (pipeline cfg).Reachable (fun s a => capChecked cfg s a) s) (j : JobId) :
    s.starts j ≤ cfg.maxAttempts := by
  refine Reachable.invariant (I := fun s => s.starts j ≤ cfg.maxAttempts)
    (fun _ => Reachable.counted) (Nat.zero_le _) ?_ h
  intro u a v hcounted hok hstep hu
  obtain ⟨w, msg, copy, stamp, row, job, rfl, hpc, rfl, hrow, hclaim, -, hcount⟩ | ⟨hcount, -⟩ :=
    step_starts hstep j
  · have hclaimable := (PRJob.claim_eq_some.mp hclaim).1
    have hcap : row.attempts < cfg.maxAttempts := by
      simpa [capChecked, hpc, hrow, hclaimable] using hok
    rw [hcount, ← hcounted.attempts_eq _ row hrow]
    exact hcap
  · rw [hcount]
    exact hu

theorem step_dead {cfg : Settings} {s t : State} {a : Action} (h : step cfg s a = some t)
    {j : JobId} {row job : PRJob} (hrow : s.jobs j = some row) (hjob : t.jobs j = some job)
    (halive : row.status ≠ .dead) (hdead : job.status = .dead) :
    ∃ w msg copy, a = .worker w .escalate ∧ s.workers w = .escalating msg copy ∧
      msg.jobId = j := by
  have hne : t.jobs j ≠ s.jobs j := by
    intro hsame
    rw [hjob, hrow] at hsame
    cases hsame
    exact halive hdead
  obtain hquiet | ⟨w, act, msg, eff, rfl, hmsg, hmove, rfl⟩ | ⟨p, act, eff, rfl, hmove, rfl⟩ :=
    step_cases h
  · exact absurd (by rw [hquiet.jobs]) hne
  · obtain hsame | ⟨new, rfl, hw, hnew⟩ := applyWorker_row s w msg eff j
    · exact absurd hsame hne
    · cases hnew.symm.trans hjob
      obtain ⟨old, hold, hst⟩ := hmove.status hw
      cases hold.symm.trans hrow
      have htarget : act.target = some .dead := by
        rw [hdead] at hst
        exact hst.resolve_left fun heq => halive heq.symm
      cases act with
      | escalate =>
        generalize hpc : s.workers w = pc at hmsg hmove
        cases hmove with
        | escalate msg' copy =>
          cases hmsg
          exact ⟨w, msg, copy, rfl, hpc, rfl⟩
        | _ => cases hw
      | _ => cases htarget
  · obtain hsame | ⟨payload, -, -, hnew, -⟩ | ⟨new, hw, hnew⟩ := applyPublisher_row hmove j
    · exact absurd hsame hne
    · cases hnew.symm.trans hjob
      cases hdead
    · cases hnew.symm.trans hjob
      obtain ⟨old, hold, hst⟩ := hmove.status hw
      cases hold.symm.trans hrow
      rw [hdead] at hst
      have htarget := hst.resolve_left fun heq => halive heq.symm
      cases act <;> cases htarget

/-- Where claims are taken below the cap and escalations meet no lease, the cap is
exact. -/
theorem attempt_cap_exact {cfg : Settings} {s : State}
    (h : (pipeline cfg).Reachable (fun s a => capChecked cfg s a) s) (j : JobId) :
    s.starts j ≤ cfg.maxAttempts ∧
    (∀ row, s.jobs j = some row → row.attempts = s.starts j) ∧
    ∀ a t row job, capChecked cfg s a → step cfg s a = some t → s.jobs j = some row →
      t.jobs j = some job → row.status ≠ .dead → job.status = .dead →
        s.starts j = cfg.maxAttempts ∧ ∀ w, s.live cfg w j = false := by
  have hcounted := Reachable.counted h
  refine ⟨starts_le h j, hcounted.attempts_eq j, ?_⟩
  intro a t row job hok hstep hrow hjob halive hdead
  obtain ⟨w, msg, copy, rfl, hpc, rfl⟩ := step_dead hstep hrow hjob halive hdead
  refine ⟨Nat.le_antisymm (starts_le h _) (hcounted.escalating_le w msg copy hpc), ?_⟩
  intro w'
  by_contra hlive
  obtain ⟨_, _, _, -, -, hrow', hlease⟩ := live_leased (Bool.not_eq_false _ ▸ hlive)
  cases hrow'.symm.trans hrow
  simp [capChecked, hpc, hrow, hlease] at hok

def failRun (w : WorkerId) : List Action :=
  workerRun w [.stampClaim, .claim, .raise "boom", .release, .recordError]

/-- Two handlings fail one after the other, and the third finds the cap reached. -/
def exhaustRun : List Action :=
  ingestRun 0 ++ .consume 0 :: .worker 0 .read :: failRun 0 ++
    [.tick 1000, .reclaim 1 0] ++ .worker 1 .read :: failRun 1 ++
    [.tick 1000, .reclaim 2 0] ++ workerRun 2 [.read, .escalate]

theorem attempt_cap_exact_exhausted :
    ((pipeline .small).after exhaustRun (by decide)).starts 0 ≤ Settings.small.maxAttempts :=
  (attempt_cap_exact (Reachable.after (by decide) (by decide)) 0).1

def overrunRun : List Action :=
  ingestRun 0 ++ [.consume 0, .worker 0 .read, .tick 1000, .reclaim 1 0, .worker 1 .read,
    .tick 1000, .reclaim 2 0, .worker 2 .read] ++ failRun 0 ++ failRun 1 ++ failRun 2

/-- The second attempt is claimed late after its delivery, so the entry is delivered
again while that attempt holds its lease. -/
def escalateLiveRun : List Action :=
  ingestRun 0 ++ .consume 0 :: .worker 0 .read :: failRun 0 ++
    [.tick 1000, .reclaim 1 0, .worker 1 .read, .tick 1000] ++
    workerRun 1 [.stampClaim, .claim] ++ [.reclaim 2 0, .worker 2 .read]

/-- The handler starts more often than the cap, and a row turns DEAD under a live
lease. -/
theorem attempt_cap_overrun :
    (∃ s, (pipeline .small).Reachable anyStep s ∧ Settings.small.maxAttempts < s.starts 0) ∧
    ∃ s t, (pipeline .small).Reachable anyStep s ∧
      step .small s (.worker 2 .escalate) = some t ∧
      (s.jobs 0).map (·.status) = some .processing ∧ (t.jobs 0).map (·.status) = some .dead ∧
      s.live .small 1 0 = true := by
  constructor
  · exact ⟨(pipeline .small).after overrunRun (by decide),
      Reachable.after _ (System.Admits.any _ _), by decide⟩
  · refine ⟨(pipeline .small).after escalateLiveRun (by decide), _,
      Reachable.after _ (System.Admits.any _ _), (Option.some_get (by decide)).symm, ?_, ?_, ?_⟩ <;>
      decide

end AutoPR.Jobs
