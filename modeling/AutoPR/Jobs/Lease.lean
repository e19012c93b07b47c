import AutoPR.Jobs.Attempts

/-! Leases. A claim stamps the row, and until the stamp is old only its owner may
change the status. The release keeps to that; the outer error branch and the
put-back of a publish write whatever the row holds, so a lease is safe where they
have nothing to write or meet a row that a claim could take as well. -/
namespace AutoPR.Jobs
open UnitOfWork Transition

/-- The claim under which the handler of a worker in its failure path raised. -/
def WorkerPc.raisedUnder : WorkerPc → Option Nat
  | .releasing _ _ stamp _ => some stamp
  | .failed _ _ (.handler stamp _) | .erring _ _ _ (.handler stamp _) => some stamp
  | _ => none

def WorkerPc.lease : WorkerPc → Option Nat
  | .running _ _ stamp | .releasing _ _ stamp _ => some stamp
  | .failed _ _ (.handler stamp false) | .erring _ _ _ (.handler stamp false) => some stamp
  | _ => none

def WorkerPc.stamp : WorkerPc → Option Nat
  | .stamped _ _ stamp | .running _ _ stamp | .releasing _ _ stamp _ => some stamp
  | .failed _ _ (.handler stamp _) | .erring _ _ _ (.handler stamp _) => some stamp
  | _ => none

/-- Where the unguarded writers may commit. After a handler that raised, the branch
has nothing to write, or the release statement failed and the row still carries the
worker's stamp; elsewhere a status is written only over a row that a claim could take. -/
def leaseRespected (cfg : Settings) (s : State) : Action → Bool
  | .worker w .recordError =>
      match s.workers w with
      | .erring _ copy exc (.handler _ true) =>
          copy.status = .queued && copy.lastError = some exc
      | .erring msg copy exc (.handler stamp false) =>
          (copy.status = .queued && copy.lastError = some exc) ||
            (s.jobs msg.jobId).all fun row => row.status = .processing && row.updatedAt = stamp
      | .erring msg copy _ .other =>
          copy.status = .queued || (s.jobs msg.jobId).all (·.claimable cfg s.now)
      | _ => true
  | .publisher p .unclaim =>
      match s.publishers p with
      | .unclaiming j _ _ => (s.jobs j).all (·.claimable cfg s.now)
      | _ => true
  | _ => true

def State.HoldsLease (cfg : Settings) (s : State) (w : WorkerId) (j : JobId) (stamp : Nat) : Prop :=
  (∃ msg, (s.workers w).message = some msg ∧ msg.jobId = j) ∧
    (s.workers w).lease = some stamp ∧ s.now ≤ stamp + cfg.reclaimIdle

/-- Nobody can claim the row before the lease with this stamp has ended. -/
def PRJob.Guarded (row : PRJob) (stamp : Nat) : Prop :=
  row.status.terminal = true ∨ (row.status = .processing ∧ stamp ≤ row.updatedAt)

theorem not_claimable_guarded {cfg : Settings} {row : PRJob} {stamp now time : Nat}
    (hg : row.Guarded stamp) (hlive : now ≤ stamp + cfg.reclaimIdle) (htime : time ≤ now) :
    row.claimable cfg time = false := by
  apply PRJob.not_claimable.mpr
  apply hg.imp id
  rintro ⟨hst, hle⟩
  refine PRJob.leased_iff.mpr ⟨hst, ?_⟩
  unfold Settings.leaseCutoff
  omega

theorem Guarded.flush {row copy new : PRJob} {now stamp : Nat} (hg : row.Guarded stamp)
    (hnow : stamp ≤ now) (hst : (row.flush now copy new).status = row.status) :
    (row.flush now copy new).Guarded stamp := by
  unfold PRJob.Guarded at hg ⊢
  rw [hst]
  apply hg.imp id
  rintro ⟨hproc, hle⟩
  refine ⟨hproc, ?_⟩
  obtain hsame | hmoved := PRJob.flush_updatedAt row copy new now
  · rwa [hsame]
  · rwa [hmoved]

structure Leases (cfg : Settings) (s : State) : Prop where
  stamp_le : ∀ w stamp, (s.workers w).stamp = some stamp → stamp ≤ s.now
  guarded : ∀ w j stamp, s.HoldsLease cfg w j stamp →
    ∃ row, s.jobs j = some row ∧ row.Guarded stamp
  single : ∀ w w' j stamp stamp', s.HoldsLease cfg w j stamp → s.HoldsLease cfg w' j stamp' → w = w'

theorem WorkerPc.stamp_of_lease {pc : WorkerPc} {stamp : Nat} (h : pc.lease = some stamp) :
    pc.stamp = some stamp := by
  unfold WorkerPc.lease at h
  split at h <;> first | exact h | cases h

theorem WorkerMove.stamp {cfg : Settings} {now : Nat} {row : Option PRJob} {pc : WorkerPc}
    {act : WorkerAct} {eff : WorkerEffect} {stamp : Nat} (h : WorkerMove cfg now row pc act eff)
    (hstamp : eff.pc.stamp = some stamp) : pc.stamp = some stamp ∨ stamp = now := by
  cases h with
  | stampClaim => exact .inr (Option.some.inj hstamp).symm
  | reload msg exc cause job =>
    cases cause <;> exact .inl hstamp
  | claimWon | raise | release | releaseError => exact .inl hstamp
  | _ => cases hstamp

theorem WorkerMove.lease {cfg : Settings} {now : Nat} {row : Option PRJob} {pc : WorkerPc}
    {act : WorkerAct} {eff : WorkerEffect} {stamp : Nat} (h : WorkerMove cfg now row pc act eff)
    (hlease : eff.pc.lease = some stamp) :
    (pc.lease = some stamp ∧ eff.write = none) ∨
    ∃ old job, pc.stamp = some stamp ∧ row = some old ∧ old.claim cfg stamp = some job ∧
      eff.write = some job := by
  cases h with
  | claimWon msg copy stamp' old job hrow hclaim =>
    cases hlease
    exact .inr ⟨old, job, rfl, hrow, hclaim, rfl⟩
  | raise | releaseError => exact .inl ⟨hlease, rfl⟩
  | reload msg exc cause job =>
    refine .inl ⟨?_, rfl⟩
    cases cause with
    | other => cases hlease
    | handler stamp released => cases released <;> exact hlease
  | _ => cases hlease

section
variable {cfg : Settings} {s t : State} {a : Action}

theorem step_now (h : step cfg s a = some t) : s.now ≤ t.now := by
  cases a with
  | tick elapsed =>
    cases h
    exact Nat.le_add_right _ _
  | consume w =>
    obtain ⟨entry, -, -, rfl⟩ := step_consume h
    exact Nat.le_refl _
  | reclaim w e =>
    obtain ⟨entry, _, -, -, -, -, -, rfl⟩ := step_reclaim h
    exact Nat.le_refl _
  | worker w act =>
    obtain ⟨msg, eff, -, -, rfl⟩ := step_worker h
    exact Nat.le_refl _
  | publisher p act =>
    obtain ⟨eff, -, rfl⟩ := step_publisher h
    exact Nat.le_refl _

theorem Leases.step_stamp_le (hs : Leases cfg s) (h : step cfg s a = some t) (w : WorkerId)
    (stamp : Nat) (hstamp : (t.workers w).stamp = some stamp) : stamp ≤ t.now := by
  have hnow := step_now h
  obtain hsame | ⟨e, entry, -, hpc⟩ | ⟨act, msg, eff, -, -, hmove, rfl⟩ := step_workers h w
  · exact Nat.le_trans (hs.stamp_le w stamp (hsame ▸ hstamp)) hnow
  · rw [hpc] at hstamp
    cases hstamp
  · rw [applyWorker_self] at hstamp
    obtain hold | rfl := hmove.stamp hstamp
    · exact hs.stamp_le w stamp hold
    · exact Nat.le_refl _

theorem step_holdsLease (h : step cfg s a = some t) {w : WorkerId} {j : JobId} {stamp : Nat}
    (hl : t.HoldsLease cfg w j stamp) :
    s.HoldsLease cfg w j stamp ∨
    ∃ act row job, a = .worker w act ∧ (s.workers w).stamp = some stamp ∧ s.jobs j = some row ∧
      row.claim cfg stamp = some job ∧ t.jobs j = some job := by
  obtain ⟨⟨msg, hmsg, rfl⟩, hlease, hlive⟩ := hl
  have hnow := Nat.le_trans (step_now h) hlive
  obtain hsame | ⟨e, entry, -, hpc⟩ | ⟨act, msg', eff, rfl, hmsg', hmove, rfl⟩ := step_workers h w
  · rw [hsame] at hmsg hlease
    exact .inl ⟨⟨msg, hmsg, rfl⟩, hlease, hnow⟩
  · rw [hpc] at hlease
    cases hlease
  · rw [applyWorker_self] at hmsg hlease
    obtain rfl : msg' = msg := Option.some.inj (hmsg'.symm.trans (hmove.message hmsg))
    obtain ⟨hold, -⟩ | ⟨row, job, hstamp, hrow, hclaim, hw⟩ := hmove.lease hlease
    · exact .inl ⟨⟨msg', hmsg', rfl⟩, hold, hnow⟩
    · exact .inr ⟨act, row, job, rfl, hstamp, hrow, hclaim, by simp [hw]⟩

theorem Leases.claim_lost (hs : Leases cfg s) {w : WorkerId} {j : JobId} {stamp time : Nat}
    (hl : s.HoldsLease cfg w j stamp) (htime : time ≤ s.now) {row : PRJob}
    (hrow : s.jobs j = some row) : row.claimable cfg time = false := by
  obtain ⟨row', hrow', hg⟩ := hs.guarded w j stamp hl
  cases hrow'.symm.trans hrow
  exact not_claimable_guarded hg hl.2.2 htime

theorem Leases.step_single (hs : Leases cfg s) (h : step cfg s a = some t) (w w' : WorkerId)
    (j : JobId) (stamp stamp' : Nat) (hw : t.HoldsLease cfg w j stamp)
    (hw' : t.HoldsLease cfg w' j stamp') : w = w' := by
  obtain hold | ⟨act, row, job, ha, hstamp, hrow, hclaim, -⟩ := step_holdsLease h hw
  · obtain hold' | ⟨act', row', job', -, hstamp', hrow', hclaim', -⟩ := step_holdsLease h hw'
    · exact hs.single w w' j stamp stamp' hold hold'
    · have hlost := hs.claim_lost hold (hs.stamp_le w' stamp' hstamp') hrow'
      rw [(PRJob.claim_eq_some.mp hclaim').1] at hlost
      cases hlost
  · obtain hold' | ⟨act', row', job', ha', -⟩ := step_holdsLease h hw'
    · have hlost := hs.claim_lost hold' (hs.stamp_le w stamp hstamp) hrow
      rw [(PRJob.claim_eq_some.mp hclaim).1] at hlost
      cases hlost
    · cases ha.symm.trans ha'
      rfl

theorem Leases.owner (hs : Leases cfg s) {w w' : WorkerId} {msg : StreamMessage} {stamp : Nat}
    {row : PRJob} (hl : s.HoldsLease cfg w msg.jobId stamp)
    (hmsg : (s.workers w').message = some msg) (hrow : s.jobs msg.jobId = some row)
    (hst : row.status = .processing) (hlease : (s.workers w').lease = some row.updatedAt) :
    w = w' := by
  obtain ⟨row', hrow', hg⟩ := hs.guarded w _ stamp hl
  cases hrow'.symm.trans hrow
  have hle : stamp ≤ row.updatedAt := by
    obtain hfin | ⟨-, hle⟩ := hg
    · rw [hst] at hfin
      cases hfin
    · exact hle
  have hlive := hl.2.2
  exact hs.single w w' _ stamp _ hl ⟨⟨msg, hmsg, rfl⟩, hlease, by omega⟩

theorem Leases.worker_guarded (hs : Leases cfg s) {w w' : WorkerId} {act : WorkerAct}
    {msg : StreamMessage} {eff : WorkerEffect} {stamp : Nat} {row job : PRJob}
    (hmsg : (s.workers w').message = some msg)
    (hmove : WorkerMove cfg s.now (s.jobs msg.jobId) (s.workers w') act eff)
    (hok : leaseRespected cfg s (.worker w' act)) (hl : s.HoldsLease cfg w msg.jobId stamp)
    (hl' : ((s.applyWorker w' msg eff).workers w).lease = some stamp)
    (hrow : s.jobs msg.jobId = some row) (hg : row.Guarded stamp) (hw : eff.write = some job) :
    job.Guarded stamp := by
  have hnow : stamp ≤ s.now := hs.stamp_le w stamp (WorkerPc.stamp_of_lease hl.2.1)
  have hlost : ∀ time, time ≤ s.now → row.claimable cfg time = false :=
    fun time htime => hs.claim_lost hl htime hrow
  have hstamp := hs.stamp_le w'
  have howner : row.status = .processing → (s.workers w').lease = some row.updatedAt → w = w' :=
    fun hst => hs.owner hl hmsg hrow hst
  rw [hrow] at hmove
  generalize hpc : s.workers w' = pc at hmsg hmove hstamp howner
  cases hmove <;> simp only [reduceCtorEq, Option.some.injEq] at hw
  case escalate msg' copy old hold =>
    cases hold
    subst hw
    obtain hsame | hdead := column_eq_or copy.status .dead row.status
    · exact Guarded.flush hg hnow ((PRJob.escalate_status ..).trans hsame)
    · exact .inl (by rw [PRJob.escalate_status, hdead]; rfl)
  case claimWon msg' copy time old new hold hclaim =>
    cases hold
    have hfree := (PRJob.claim_eq_some.mp hclaim).1
    rw [hlost time (hstamp time rfl)] at hfree
    cases hfree
  case succeed msg' copy time old summary hold =>
    cases hold
    subst hw
    obtain hsame | hdone := column_eq_or copy.status .done row.status
    · exact Guarded.flush hg hnow ((PRJob.finish_status ..).trans hsame)
    · exact .inl (by rw [PRJob.finish_status, hdone]; rfl)
  case release msg' copy time exc =>
    obtain ⟨hst, rfl⟩ := (PRJob.release_eq_some.mp hw).1
    rw [howner hst rfl, applyWorker_self] at hl'
    cases hl'
  case recordError msg' copy exc cause =>
    cases hmsg
    simp only [Option.map_some, Option.some.injEq] at hw
    subst hw
    cases cause with
    | other =>
      have hok : copy.status = .queued ∨ row.claimable cfg s.now = true := by
        simpa [leaseRespected, hpc, hrow] using hok
      obtain hqueued | hfree := hok
      · exact Guarded.flush hg hnow (by
          rw [PRJob.flush_status]
          simp [hqueued])
      · rw [hlost s.now (Nat.le_refl _)] at hfree
        cases hfree
    | handler time released =>
      have hclean : copy.status = .queued → copy.lastError = some exc →
          (row.recordError s.now copy exc).Guarded stamp := by
        intro hqueued herror
        have hsame : row.recordError s.now copy exc = row :=
          PRJob.flush_clean _ _ _ _ hqueued.symm herror.symm rfl
        rwa [hsame]
      cases released with
      | true =>
        have hok : copy.status = .queued ∧ copy.lastError = some exc := by
          simpa [leaseRespected, hpc] using hok
        exact hclean hok.1 hok.2
      | false =>
        have hok : (copy.status = .queued ∧ copy.lastError = some exc) ∨
            (row.status = .processing ∧ row.updatedAt = time) := by
          simpa [leaseRespected, hpc, hrow] using hok
        obtain ⟨hqueued, herror⟩ | ⟨hst, rfl⟩ := hok
        · exact hclean hqueued herror
        · rw [howner hst rfl, applyWorker_self] at hl'
          cases hl'

theorem Leases.publisher_guarded (hs : Leases cfg s) {w : WorkerId} {p : PublisherId}
    {act : PublisherAct} {eff : PublisherEffect} {j : JobId} {stamp : Nat} {row job : PRJob}
    (hmove : PublisherMove cfg s.now s.jobs s.nextId s.nextEntry p (s.publishers p) act eff)
    (hok : leaseRespected cfg s (.publisher p act)) (hl : s.HoldsLease cfg w j stamp)
    (hrow : s.jobs j = some row) (hg : row.Guarded stamp) (hw : eff.write = some (j, job)) :
    job.Guarded stamp := by
  have hnow : stamp ≤ s.now := hs.stamp_le w stamp (WorkerPc.stamp_of_lease hl.2.1)
  generalize hpc : s.publishers p = pc at hmove
  cases hmove <;> simp only [reduceCtorEq, Option.some.injEq, Prod.mk.injEq] at hw
  case claimWon i caller old new hold hclaim =>
    obtain ⟨rfl, rfl⟩ := hw
    cases hold.symm.trans hrow
    have hpending := (PRJob.claimPublish_eq_some.mp hclaim).1
    obtain hfin | ⟨hst, -⟩ := hg
    · rw [hpending] at hfin
      cases hfin
    · cases hpending.symm.trans hst
  case confirm i copy msgId caller =>
    obtain ⟨old, hold, hnew⟩ := Option.map_eq_some_iff.mp hw
    cases hnew
    cases hold.symm.trans hrow
    exact Guarded.flush hg hnow (PRJob.confirm_status ..)
  case unclaim i copy exc =>
    obtain ⟨old, hold, hnew⟩ := Option.map_eq_some_iff.mp hw
    cases hnew
    cases hold.symm.trans hrow
    have hfree : row.claimable cfg s.now = true := by
      simpa [leaseRespected, hpc, hrow] using hok
    rw [hs.claim_lost hl (Nat.le_refl _) hrow] at hfree
    cases hfree

theorem Leases.step (hwf : WellFormed s) (hok : leaseRespected cfg s a)
    (h : step cfg s a = some t) (hs : Leases cfg s) : Leases cfg t where
  stamp_le := hs.step_stamp_le h
  single := hs.step_single h
  guarded w j stamp hl := by
    obtain hold | ⟨act, row, job, -, -, -, hclaim, hjob⟩ := step_holdsLease h hl
    · obtain ⟨row, hrow, hg⟩ := hs.guarded w j stamp hold
      obtain hquiet | ⟨w', act, msg, eff, rfl, hmsg, hmove, rfl⟩ | ⟨p, act, eff, rfl, hmove, rfl⟩ :=
        step_cases h
      · exact ⟨row, hquiet.jobs ▸ hrow, hg⟩
      · obtain hsame | ⟨job, rfl, hw, hnew⟩ := applyWorker_row s w' msg eff j
        · exact ⟨row, hsame ▸ hrow, hg⟩
        · exact ⟨job, hnew, hs.worker_guarded hmsg hmove hok hold hl.2.1 hrow hg hw⟩
      · obtain hsame | ⟨payload, rfl, -⟩ | ⟨job, hw, hnew⟩ := applyPublisher_row hmove j
        · exact ⟨row, hsame ▸ hrow, hg⟩
        · cases hwf.jobs_nextId.symm.trans hrow
        · exact ⟨job, hnew, hs.publisher_guarded hmove hok hold hrow hg hw⟩
    · refine ⟨job, hjob, .inr ?_⟩
      rw [(PRJob.claim_eq_some.mp hclaim).2]
      exact ⟨rfl, Nat.le_refl _⟩

theorem Leases.initial (cfg : Settings) : Leases cfg State.initial where
  stamp_le _ _ hstamp := by cases hstamp
  guarded _ _ _ hl := by cases hl.2.1
  single _ _ _ _ _ hl := by cases hl.2.1

end

theorem Reachable.leases {cfg : Settings} {s : State}
    (h : (pipeline cfg).Reachable (fun s a => leaseRespected cfg s a) s) : Leases cfg s :=
  Reachable.invariant (fun _ => Reachable.wellFormed) (Leases.initial cfg)
    (fun _ _ _ hwf hok hstep hs => hs.step hwf hok hstep) h

theorem live_holdsLease {cfg : Settings} {s : State} {w : WorkerId} {j : JobId}
    (h : s.live cfg w j = true) : ∃ stamp, s.HoldsLease cfg w j stamp := by
  obtain ⟨msg, copy, row, hpc, hj, -, hlease⟩ := live_leased h
  have hcutoff := (PRJob.leased_iff.mp hlease).2
  unfold Settings.leaseCutoff at hcutoff
  exact ⟨row.updatedAt, ⟨msg, by rw [hpc]; rfl, hj⟩, by rw [hpc]; rfl, by omega⟩

theorem failure_keeps_lease {cfg : Settings} {s t : State} {w : WorkerId} {act : WorkerAct}
    {msg : StreamMessage} {stamp : Nat} (hok : leaseRespected cfg s (.worker w act))
    (h : step cfg s (.worker w act) = some t) (hmsg : (s.workers w).message = some msg)
    (hraised : (s.workers w).raisedUnder = some stamp)
    (hchange : t.jobs msg.jobId ≠ s.jobs msg.jobId) :
    ∃ row, s.jobs msg.jobId = some row ∧ row.status = .processing ∧ row.updatedAt = stamp := by
  obtain ⟨msg', eff, hmsg', hmove, rfl⟩ := step_worker h
  cases hmsg'.symm.trans hmsg
  obtain hsame | ⟨job, -, hw, -⟩ := applyWorker_row s w msg eff msg.jobId
  · exact absurd hsame hchange
  have hnew : (s.applyWorker w msg eff).jobs msg.jobId = some job := by simp [hw]
  generalize hpc : s.workers w = pc at hmsg hmove hraised
  cases hmove <;> simp only [reduceCtorEq, Option.some.injEq] at hw <;>
    simp only [WorkerPc.raisedUnder, reduceCtorEq, Option.some.injEq] at hraised
  case release msg' copy time exc =>
    subst hraised
    obtain ⟨row, hrow, hjob⟩ := Option.bind_eq_some_iff.mp hw
    exact ⟨row, hrow, (PRJob.release_eq_some.mp hjob).1⟩
  case recordError msg' copy exc cause =>
    cases hmsg
    obtain ⟨row, hrow, hjob⟩ := Option.map_eq_some_iff.mp hw
    have hclean : copy.status = .queued → copy.lastError = some exc → False := by
      intro hqueued herror
      have hsame : row.recordError s.now copy exc = row :=
        PRJob.flush_clean _ _ _ _ hqueued.symm herror.symm rfl
      rw [hnew, hrow, ← hjob, hsame] at hchange
      exact hchange rfl
    cases cause with
    | other => cases hraised
    | handler time released =>
      obtain rfl : time = stamp := Option.some.inj hraised
      cases released with
      | true =>
        have hok : copy.status = .queued ∧ copy.lastError = some exc := by
          simpa [leaseRespected, hpc] using hok
        exact absurd hok.2 (hclean hok.1)
      | false =>
        have hok : (copy.status = .queued ∧ copy.lastError = some exc) ∨
            (row.status = .processing ∧ row.updatedAt = time) := by
          simpa [leaseRespected, hpc, hrow] using hok
        obtain hnothing | hown := hok
        · exact absurd hnothing.2 (hclean hnothing.1)
        · exact ⟨row, hrow, hown⟩

/-- One live runner a job, and no failing worker changes a row that does not carry
its claim. -/
theorem single_live_runner {cfg : Settings} {s : State}
    (h : (pipeline cfg).Reachable (fun s a => leaseRespected cfg s a) s) :
    (∀ w w' j, s.live cfg w j = true → s.live cfg w' j = true → w = w') ∧
    ∀ w act t msg stamp, leaseRespected cfg s (.worker w act) →
      step cfg s (.worker w act) = some t → (s.workers w).message = some msg →
      (s.workers w).raisedUnder = some stamp → t.jobs msg.jobId ≠ s.jobs msg.jobId →
        ∃ row, s.jobs msg.jobId = some row ∧ row.status = .processing ∧
          row.updatedAt = stamp := by
  constructor
  · intro w w' j hw hw'
    obtain ⟨stamp, hl⟩ := live_holdsLease hw
    obtain ⟨stamp', hl'⟩ := live_holdsLease hw'
    exact (Reachable.leases h).single w w' j stamp stamp' hl hl'
  · intro w act t msg stamp hok hstep hmsg hraised hchange
    exact failure_keeps_lease hok hstep hmsg hraised hchange

def claimSteps : List WorkerAct := [.read, .stampClaim, .claim]

/-- The first attempt fails with an error that the second attempt, running now, may
repeat. -/
def secondRun : List Action :=
  ingestRun 0 ++ .consume 0 ::
    workerRun 0 (claimSteps ++ [.raise "boom", .release, .dbError "OperationalError"]) ++
    [.tick 1000, .reclaim 1 0] ++ workerRun 1 claimSteps

def secondState : State := (pipeline .small).after secondRun (by decide)

theorem single_live_runner_second :
    secondState.live .small 1 0 = true ∧ ∀ w, secondState.live .small w 0 = true → w = 1 :=
  ⟨by decide, fun w hw => (single_live_runner (Reachable.after (by decide) (by decide))).1 w 1 0 hw
    (by decide)⟩

/-- A crashed handling leaves the row PROCESSING, so the copy of the next one is
PROCESSING too; when its lease ends the third claims, and then its handler raises. -/
def stealRun : List Action :=
  ingestRun 0 ++ .consume 0 :: workerRun 0 (claimSteps ++ [.crash]) ++
    [.tick 1001, .reclaim 1 0] ++ workerRun 1 claimSteps ++
    [.tick 1001, .reclaim 2 0] ++ workerRun 2 claimSteps ++
    workerRun 1 [.raise "boom", .release]

def Settings.three : Settings := { Settings.small with maxAttempts := 3 }

def stealState : State := (pipeline .three).after stealRun (by decide)

/-- The error branch of the handling that lost its lease takes the row from the one
that holds it. -/
theorem lease_stolen :
    ∃ t, (pipeline .three).Reachable anyStep stealState ∧
      step .three stealState (.worker 1 .recordError) = some t ∧
      (stealState.workers 1).raisedUnder = some 1001 ∧
      (stealState.jobs 0).map (fun row => (row.status, row.updatedAt)) =
        some (.processing, 2002) ∧
      stealState.live .three 2 0 = true ∧ (t.jobs 0).map (·.status) = some .queued :=
  ⟨_, Reachable.after (by decide) (System.Admits.any _ _), (Option.some_get (by decide)).symm,
    by decide, by decide, by decide, by decide⟩

end AutoPR.Jobs
