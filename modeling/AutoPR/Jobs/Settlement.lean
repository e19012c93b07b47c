import AutoPR.Library.Liveness
import AutoPR.Jobs.Ack
import AutoPR.Jobs.Attended

/-! What surviving workers can do. However the others have stopped, a job that still has an entry on
the stream is finished by delivering that entry again when its lease has passed, once for each attempt
that is left and once more. -/
namespace AutoPR.Jobs
open UnitOfWork Transition Liveness

def Action.delivers : Action → Bool
  | .tick _ | .consume _ | .reclaim _ _ => true
  | .worker _ _ | .publisher _ _ => false

inductive Verdict where
  | succeeds (summary : String)
  | raises (exc : String)
  /-- The worker dies, too. -/
  | dies

def Verdict.acts : Verdict → List WorkerAct
  | .succeeds summary => [.succeed summary, .ack]
  | .raises exc => [.raise exc, .release, .recordError]
  | .dies => [.crash]

/-- What `_handle_message` does with a job that is not finished, when nobody else does anything. -/
def handling (cfg : Settings) (attempts : Nat) (v : Verdict) : List WorkerAct :=
  if cfg.maxAttempts ≤ attempts then [.read, .escalate, .ack]
  else [.read, .stampClaim, .claim] ++ v.acts

/-- Time passes and entries are handed out, until a handling has been given the entry: more than
`reclaimIdle` later, when every lease that was held has passed. -/
def HandsOver (cfg : Settings) (e : EntryId) (w : WorkerId) (s t : State) : Prop :=
  ∃ acts, (∀ a ∈ acts, a.delivers = true) ∧ (pipeline cfg).exec acts s = some t ∧
    s.now + cfg.reclaimIdle < t.now ∧
    ∃ msg, t.workers w = .received msg ∧ msg.id = e

/-- The entry is delivered and handled once. -/
def Redelivers (cfg : Settings) (e : EntryId) (v : Verdict) (s t : State) : Prop :=
  ∃ w u msg row, HandsOver cfg e w s u ∧ u.workers w = .received msg ∧
    u.jobs msg.jobId = some row ∧
    (pipeline cfg).exec (workerRun w (handling cfg row.attempts v)) u = some t

/-- The job is DONE or DEAD. -/
def State.settled (s : State) (j : JobId) : Prop :=
  ∃ row, s.jobs j = some row ∧ row.status.terminal = true

section
variable {cfg : Settings} {s t u : State} {w : WorkerId} {e : EntryId} {msg : StreamMessage}
  {row : PRJob}

structure Handed (s t : State) : Prop where
  jobs : t.jobs = s.jobs
  entry : ∀ e entry, s.stream e = some entry → ∃ entry', t.stream e = some entry' ∧
    entry'.message = entry.message ∧ entry'.acked = entry.acked

theorem Handed.refl (s : State) : Handed s s := ⟨rfl, fun _ entry h => ⟨entry, h, rfl, rfl⟩⟩

theorem Handed.trans (h : Handed s t) (h' : Handed t u) : Handed s u where
  jobs := h'.jobs.trans h.jobs
  entry e entry hentry := by
    obtain ⟨entry', hentry', hmsg, hack⟩ := h.entry e entry hentry
    obtain ⟨last, hlast, hmsg', hack'⟩ := h'.entry e entry' hentry'
    exact ⟨last, hlast, hmsg'.trans hmsg, hack'.trans hack⟩

theorem handed_deliver (w : WorkerId) {entry : StreamEntry} (hentry : s.stream e = some entry) :
    Handed s (s.deliver w e entry) where
  jobs := rfl
  entry e' old hold := by
    by_cases he : e' = e
    · subst he
      cases hentry.symm.trans hold
      exact ⟨_, deliver_stream_self .., rfl, rfl⟩
    · exact ⟨old, (deliver_stream_of_ne w entry he).trans hold, rfl, rfl⟩

theorem handed_step {a : Action} (ha : a.delivers = true) (h : step cfg s a = some t) :
    Handed s t := by
  cases a with
  | tick elapsed =>
    cases h
    exact ⟨rfl, fun _ entry h => ⟨entry, h, rfl, rfl⟩⟩
  | consume w =>
    obtain ⟨entry, -, hentry, rfl⟩ := step_consume h
    have hdeliver := handed_deliver w hentry
    exact ⟨hdeliver.jobs, hdeliver.entry⟩
  | reclaim w e =>
    obtain ⟨entry, _, -, hentry, -, -, -, rfl⟩ := step_reclaim h
    exact handed_deliver w hentry
  | worker w act => cases ha
  | publisher p act => cases ha

theorem handed_exec {acts : List Action} (hacts : ∀ a ∈ acts, a.delivers = true)
    (h : (pipeline cfg).exec acts s = some t) : Handed s t := by
  induction acts generalizing s with
  | nil =>
    cases h
    exact .refl _
  | cons a rest ih =>
    obtain ⟨u, hu, hrest⟩ := Option.bind_eq_some_iff.mp h
    have hfirst := handed_step (hacts a List.mem_cons_self) hu
    exact hfirst.trans (ih (fun b hb => hacts b (List.mem_cons_of_mem a hb)) hrest)

theorem exec_worker {act : WorkerAct} {rest : List WorkerAct} {pc : WorkerPc} (eff : WorkerEffect)
    (hpc : s.workers w = pc) (hmsg : pc.message = some msg)
    (hstep : workerStep cfg s.now (s.jobs msg.jobId) pc act = some eff) :
    (pipeline cfg).exec (workerRun w (act :: rest)) s =
      (pipeline cfg).exec (workerRun w rest) (s.applyWorker w msg eff) := by
  have hnext : (pipeline cfg).step s (.worker w act) = some (s.applyWorker w msg eff) := by
    change step cfg s (.worker w act) = _
    subst hpc
    simp only [step, hmsg, hstep, Option.bind_eq_bind, Option.bind_some, Option.pure_def]
  simp only [workerRun, List.map_cons, System.exec, hnext, Option.bind_some]

theorem handling_spent (hpc : u.workers w = .received msg) (hrow : u.jobs msg.jobId = some row)
    (hopen : row.status.terminal = false) (hcap : cfg.maxAttempts ≤ row.attempts) (v : Verdict) :
    ∃ t, (pipeline cfg).exec (workerRun w (handling cfg row.attempts v)) u = some t ∧
      t.settled msg.jobId := by
  have hdead : (row.escalate u.now row).status = .dead := by
    rw [PRJob.escalate_status, column_fresh]
  unfold handling
  rw [if_pos hcap]
  rw [exec_worker { pc := .escalating msg row } hpc rfl
    (by simp [workerStep, afterRead, hrow, hopen, hcap])]
  rw [exec_worker { pc := .acking msg, write := some (row.escalate u.now row) }
    (applyWorker_self ..) rfl (by simp [workerStep, hrow]; rfl)]
  rw [exec_worker _ (applyWorker_self ..) rfl rfl]
  refine ⟨_, rfl, row.escalate u.now row, ?_, ?_⟩
  · simp
  · rw [hdead]
    rfl

/-- The job while its handler runs. -/
abbrev PRJob.started (row : PRJob) (now : Nat) : PRJob :=
  { row with status := .processing, attempts := row.attempts + 1, updatedAt := now }

abbrev PRJob.released (row : PRJob) (now : Nat) (exc : String) : PRJob :=
  { row.started now with status := .queued, lastError := some exc, updatedAt := now }

structure Spends (s t : State) (j : JobId) (row : PRJob) : Prop where
  row : ∃ job, t.jobs j = some job ∧ job.status.terminal = false ∧
    job.attempts = row.attempts + 1
  stream : t.stream = s.stream

theorem handling_claims (hpc : u.workers w = .received msg) (hrow : u.jobs msg.jobId = some row)
    (hopen : row.status.terminal = false) (hcap : row.attempts < cfg.maxAttempts)
    (hclaim : row.claimable cfg u.now = true) (v : Verdict) :
    ∃ t, (pipeline cfg).exec (workerRun w (handling cfg row.attempts v)) u = some t ∧
      (t.settled msg.jobId ∨ Spends u t msg.jobId row) := by
  have hclaimed : row.claim cfg u.now = some (row.started u.now) :=
    PRJob.claim_eq_some.mpr ⟨hclaim, rfl⟩
  unfold handling
  rw [if_neg (Nat.not_le_of_lt hcap), List.cons_append, List.cons_append, List.cons_append,
    List.nil_append]
  rw [exec_worker { pc := .claiming msg row } hpc rfl
    (by simp [workerStep, afterRead, hrow, hopen, Nat.not_le_of_lt hcap])]
  rw [exec_worker { pc := .stamped msg row u.now } (applyWorker_self ..) rfl rfl]
  rw [exec_worker
    { pc := .running msg row u.now, write := some (row.started u.now),
      events := [.started msg.jobId msg.id] }
    (applyWorker_self ..) rfl (by simp [workerStep, hrow, hclaimed])]
  cases v with
  | succeeds summary =>
    unfold Verdict.acts
    rw [exec_worker
      { pc := .acking msg, write := some ((row.started u.now).finish u.now row),
        record := some summary, events := [.completed msg.jobId summary] }
      (applyWorker_self ..) rfl (by simp [workerStep]; rfl)]
    rw [exec_worker _ (applyWorker_self ..) rfl rfl]
    refine ⟨_, rfl, .inl ⟨(row.started u.now).finish u.now row, ?_, ?_⟩⟩
    · simp
    · rw [PRJob.finish_status, column_dirty]
      · rfl
      · intro hdone
        rw [← hdone] at hopen
        cases hopen
  | raises exc =>
    unfold Verdict.acts
    rw [exec_worker { pc := .releasing msg row u.now exc } (applyWorker_self ..) rfl rfl]
    rw [exec_worker
      { pc := .erring msg row exc (.handler u.now true), write := some (row.released u.now exc) }
      (applyWorker_self ..) rfl (by simp [workerStep, PRJob.release]; rfl)]
    rw [exec_worker
      { pc := .finished, write := some ((row.released u.now exc).recordError u.now row exc) }
      (applyWorker_self ..) rfl (by simp [workerStep]; rfl)]
    refine ⟨_, rfl, .inr ⟨⟨(row.released u.now exc).recordError u.now row exc, ?_, ?_, ?_⟩, rfl⟩⟩
    · simp
    · rw [PRJob.recordError_status]
      obtain h | h := column_eq_or row.status .queued (row.released u.now exc).status <;> rw [h] <;>
        rfl
    · exact PRJob.flush_attempts ..
  | dies =>
    unfold Verdict.acts
    rw [exec_worker { pc := .crashed } (applyWorker_self ..) rfl rfl]
    refine ⟨_, rfl, .inr ⟨⟨row.started u.now, ?_, rfl, rfl⟩, rfl⟩⟩
    simp

theorem consume_step {entry : StreamEntry} (hidle : s.workers w = .idle)
    (hentry : s.stream s.cursor = some entry) :
    (pipeline cfg).step s (.consume w) =
      some { s.deliver w s.cursor entry with cursor := s.cursor + 1 } := by
  simp only [pipeline, step, hidle, hentry]

theorem reclaim_step {entry : StreamEntry} {d : Nat} (hidle : s.workers w = .idle)
    (hentry : s.stream e = some entry) (hack : entry.acked = false)
    (hd : entry.deliveredAt = some d) (hdue : d + cfg.reclaimIdle ≤ s.now) :
    (pipeline cfg).step s (.reclaim w e) = some (s.deliver w e entry) := by
  have hclaim : (!entry.acked && decide (d + cfg.reclaimIdle ≤ s.now)) = true := by
    rw [hack, decide_eq_true hdue]
    rfl
  simp only [pipeline, step, hidle, hentry, hd, hclaim, if_true]

theorem consume_upto (h : (pipeline cfg).Reachable anyStep s) {entry : StreamEntry}
    (hentry : s.stream e = some entry) (hcursor : s.cursor ≤ e) :
    ∃ acts t w, (∀ a ∈ acts, a.delivers = true) ∧ (pipeline cfg).exec acts s = some t ∧
      t.now = s.now ∧ t.workers w = .received entry.message := by
  induction hn : e - s.cursor generalizing s with
  | zero =>
    obtain rfl : s.cursor = e := Nat.le_antisymm hcursor (Nat.le_of_sub_eq_zero hn)
    obtain ⟨w, hw⟩ := (Reachable.attended h).idle
    have hidle := hw w (Nat.le_refl w)
    refine ⟨[.consume w], { s.deliver w s.cursor entry with cursor := s.cursor + 1 }, w,
      by simp [Action.delivers], ?_, rfl, Function.update_self ..⟩
    simp only [System.exec, consume_step hidle hentry, Option.bind_some]
  | succ n ih =>
    have hlt : s.cursor < e := Nat.lt_of_sub_eq_succ hn
    obtain ⟨first, hfirst⟩ := (Reachable.attended h).present s.cursor
      (Nat.lt_trans hlt ((Reachable.wellFormed h).stream_lt e entry hentry))
    obtain ⟨w, hw⟩ := (Reachable.attended h).idle
    have hidle := hw w (Nat.le_refl w)
    have hstep : (pipeline cfg).step s (.consume w) = _ := consume_step hidle hfirst
    have hsame := (deliver_stream_of_ne w first (Nat.ne_of_gt hlt)).trans hentry
    obtain ⟨acts, t, v, hacts, hexec, hnow, hreceived⟩ :=
      ih (Reachable.step h trivial hstep) hsame hlt (by rw [Nat.sub_succ, hn]; rfl)
    refine ⟨.consume w :: acts, t, v, ?_, ?_, hnow, hreceived⟩
    · intro a ha
      cases ha with
      | head => rfl
      | tail _ ha => exact hacts a ha
    · simp only [System.exec, hstep, Option.bind_some]
      exact hexec

/-- The state when nothing but time has passed. -/
abbrev State.later (s : State) (elapsed : Nat) : State := { s with now := s.now + elapsed }

theorem handsOver_exists (h : (pipeline cfg).Reachable anyStep s) {entry : StreamEntry}
    (hentry : s.stream e = some entry) (hack : entry.acked = false) :
    ∃ w t, HandsOver cfg e w s t := by
  have hid := ((Reachable.wellFormed h).stream_job e entry hentry).1
  have hstep : (pipeline cfg).step s (.tick (cfg.reclaimIdle + 1)) =
      some (s.later (cfg.reclaimIdle + 1)) := rfl
  have hreach := Reachable.step h trivial hstep
  have hlater : s.now + cfg.reclaimIdle < (s.later (cfg.reclaimIdle + 1)).now :=
    Nat.lt_succ_self _
  cases hd : entry.deliveredAt with
  | some d =>
    obtain ⟨w, hw⟩ := (Reachable.attended hreach).idle
    have hle := (Reachable.attended h).delivery e entry d hentry hd
    have hdue : d + cfg.reclaimIdle ≤ (s.later (cfg.reclaimIdle + 1)).now := by
      change d + cfg.reclaimIdle ≤ s.now + (cfg.reclaimIdle + 1)
      omega
    have hreclaim := reclaim_step (hw w (Nat.le_refl w)) hentry hack hd hdue
    refine ⟨w, (s.later _).deliver w e entry, [.tick (cfg.reclaimIdle + 1), .reclaim w e],
      by simp [Action.delivers], ?_, hlater, entry.message, Function.update_self w _ s.workers, hid⟩
    simp only [System.exec, hstep, hreclaim, Option.bind_some]
  | none =>
    have hcursor : s.cursor ≤ e := by
      by_contra hlt
      have hsome := ((Reachable.attended h).handed e entry hentry).mpr (Nat.lt_of_not_le hlt)
      rw [hd] at hsome
      cases hsome
    obtain ⟨acts, t, w, hacts, hexec, hnow, hreceived⟩ := consume_upto hreach hentry hcursor
    refine ⟨w, t, .tick (cfg.reclaimIdle + 1) :: acts, ?_, ?_, hnow ▸ hlater, _, hreceived, hid⟩
    · intro a ha
      cases ha with
      | head => rfl
      | tail _ ha => exact hacts a ha
    · simp only [System.exec, hstep, Option.bind_some]
      exact hexec

structure Unfinished (cfg : Settings) (j : JobId) (e : EntryId) (s : State) : Prop where
  reachable : (pipeline cfg).Reachable anyStep s
  outstanding : s.Outstanding j e
  job : ∃ row, s.jobs j = some row

def State.left (cfg : Settings) (s : State) (j : JobId) : Nat :=
  cfg.maxAttempts - (s.jobs j).elim 0 (·.attempts)

theorem claimable_later {now : Nat} (hopen : row.status.terminal = false)
    (hdate : row.updatedAt + cfg.reclaimIdle < now) : row.claimable cfg now = true := by
  have hpassed : row.updatedAt < cfg.leaseCutoff now := by
    unfold Settings.leaseCutoff
    omega
  unfold PRJob.claimable
  cases hs : row.status with
  | pending | queued => simp
  | processing => simp [hpassed]
  | done | dead =>
    rw [hs] at hopen
    cases hopen

structure Found (cfg : Settings) (j : JobId) (e : EntryId) (msg : StreamMessage) (row : PRJob)
    (s u : State) : Prop where
  unfinished : Unfinished cfg j e u
  own : msg.jobId = j
  before : s.jobs j = some row
  now : u.jobs j = some row
  opened : row.status.terminal = false
  claimable : row.claimable cfg u.now = true

theorem Unfinished.found {j : JobId} (hs : Unfinished cfg j e s) (hgoal : ¬ s.settled j)
    (h : HandsOver cfg e w s u) :
    ∃ msg row, u.workers w = .received msg ∧ Found cfg j e msg row s u := by
  obtain ⟨acts, hacts, hexec, hlater, msg, hpc, hid⟩ := h
  have hhanded := handed_exec hacts hexec
  have hreach : (pipeline cfg).Reachable anyStep u :=
    Reachable.run hs.reachable (Run.of_exec hexec (System.Admits.any ..))
  obtain ⟨entry, hentry, hjob, hack⟩ := hs.outstanding
  obtain ⟨entry', hentry', hmsg, hack'⟩ := hhanded.entry e entry hentry
  obtain ⟨held, hheld, hmsg'⟩ :=
    (Reachable.wellFormed hreach).worker_entry w msg (by rw [hpc]; rfl)
  rw [hid] at hheld
  cases hentry'.symm.trans hheld
  obtain ⟨row, hrow⟩ := hs.job
  have hrow' : u.jobs j = some row := hhanded.jobs ▸ hrow
  have hopen : row.status.terminal = false := by
    rw [← Bool.not_eq_true]
    exact fun hterminal => hgoal ⟨row, hrow, hterminal⟩
  have hdate := (Reachable.attended hs.reachable).row j row hrow
  refine ⟨msg, row, hpc, ⟨hreach, ⟨entry', hentry', hmsg ▸ hjob, hack'.trans hack⟩, row, hrow'⟩,
    ?_, hrow, hrow', hopen, claimable_later hopen ?_⟩
  · rw [← hmsg', hmsg, hjob]
  · omega

theorem redelivers_exists {j : JobId} (hs : Unfinished cfg j e s) (hgoal : ¬ s.settled j)
    (v : Verdict) : ∃ t, Redelivers cfg e v s t := by
  obtain ⟨entry, hentry, hjob, hack⟩ := hs.outstanding
  obtain ⟨w, u, hover⟩ := handsOver_exists hs.reachable hentry hack
  obtain ⟨msg, row, hpc, hfound⟩ := hs.found hgoal hover
  have hrow : u.jobs msg.jobId = some row := hfound.own ▸ hfound.now
  have hend : ∃ t, (pipeline cfg).exec (workerRun w (handling cfg row.attempts v)) u = some t := by
    by_cases hcap : cfg.maxAttempts ≤ row.attempts
    · obtain ⟨t, ht, -⟩ := handling_spent hpc hrow hfound.opened hcap v
      exact ⟨t, ht⟩
    · obtain ⟨t, ht, -⟩ := handling_claims hpc hrow hfound.opened (Nat.lt_of_not_le hcap)
        hfound.claimable v
      exact ⟨t, ht⟩
  obtain ⟨t, ht⟩ := hend
  exact ⟨t, w, u, msg, row, hover, hpc, hrow, ht⟩

theorem redelivers_counts {j : JobId} {v : Verdict} (hs : Unfinished cfg j e s)
    (hgoal : ¬ s.settled j) (h : Redelivers cfg e v s t) :
    t.settled j ∨ (Unfinished cfg j e t ∧ t.left cfg j < s.left cfg j) := by
  obtain ⟨w, u, msg, row, hover, hpc, hrow, hhandle⟩ := h
  obtain ⟨msg', row', hpc', hfound⟩ := hs.found hgoal hover
  cases WorkerPc.received.inj (hpc'.symm.trans hpc)
  obtain rfl := hfound.own
  cases hfound.now.symm.trans hrow
  by_cases hcap : cfg.maxAttempts ≤ row.attempts
  · obtain ⟨t', ht', hsettled⟩ := handling_spent hpc hrow hfound.opened hcap v
    cases ht'.symm.trans hhandle
    exact .inl hsettled
  · obtain ⟨t', ht', hend⟩ := handling_claims hpc hrow hfound.opened (Nat.lt_of_not_le hcap)
      hfound.claimable v
    cases ht'.symm.trans hhandle
    refine hend.imp id fun hspends => ?_
    obtain ⟨job, hjob, -, hattempts⟩ := hspends.row
    obtain ⟨entry, hentry, hown, hack⟩ := hfound.unfinished.outstanding
    refine ⟨⟨?_, ⟨entry, hspends.stream ▸ hentry, hown, hack⟩, job, hjob⟩, ?_⟩
    · exact Reachable.run hfound.unfinished.reachable (Run.of_exec hhandle (System.Admits.any ..))
    · simp only [State.left, hjob, hfound.before, Option.elim_some, hattempts]
      omega

theorem Unfinished.settles {j : JobId} (hs : Unfinished cfg j e s) :
    Within (Redelivers cfg e) (State.settled · j) (s.left cfg j + 1) s := by
  apply Within.of_rank (State.left cfg · j) _ _ hs
  · intro u hu
    by_cases hgoal : u.settled j
    · exact .inl hgoal
    · exact .inr (redelivers_exists hu hgoal)
  · intro v u t hu hgoal hnext
    exact redelivers_counts hu hgoal hnext

end

/-- From every state that any run can leave behind, surviving workers that handle an entry of a job
one after the other, each when the leases before it have passed, finish the job, whatever becomes of
its handlers: in as many deliveries as the job has attempts left, and one more. -/
theorem survivor_settles {cfg : Settings} {s : State} {j : JobId} {e : EntryId} {row : PRJob}
    (h : (pipeline cfg).Reachable anyStep s) (hout : s.Outstanding j e)
    (hrow : s.jobs j = some row) :
    Within (Redelivers cfg e) (State.settled · j) (cfg.maxAttempts - row.attempts + 1) s := by
  have hs : Unfinished cfg j e s := ⟨h, hout, row, hrow⟩
  simpa only [State.left, hrow, Option.elim_some] using hs.settles

/-- The worker dies while the handler runs, under its first lease. -/
def deadState : State :=
  (pipeline .small).after
    (ingestRun 0 ++ .consume 0 :: workerRun 0 (claimSteps ++ [.crash])) (by decide)

theorem survivor_settles_dead :
    Within (Redelivers .small 0) (State.settled · 0) 2 deadState :=
  @survivor_settles .small deadState 0 0 _ (Reachable.after _ (System.Admits.any _ _))
    ⟨_, rfl, rfl, rfl⟩ rfl

end AutoPR.Jobs
