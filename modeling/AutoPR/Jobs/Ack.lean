import AutoPR.Jobs.Terminal

/-! Acknowledgements. The loser of a claim acknowledges its entry because the
winner holds another; but one entry can be delivered twice, and then winner and
loser hold the same. An unfinished job keeps an entry of its own where no delivery
acknowledges the entry that the last claim was made through. -/
namespace AutoPR.Jobs
open UnitOfWork Transition

def Event.entryOf (j : JobId) : Event → Option EntryId
  | .started i e => if i = j then some e else none
  | _ => none

def State.owner (s : State) (j : JobId) : Option EntryId :=
  s.events.findSome? (Event.entryOf j)

/-- The entry is the job's and not acknowledged. -/
def State.Outstanding (s : State) (j : JobId) (e : EntryId) : Prop :=
  ∃ entry, s.stream e = some entry ∧ entry.message.jobId = j ∧ entry.acked = false

/-- A row is claimed through an entry that is still pending, the entry of the last
claim is acknowledged only when the job is finished, and nothing reopens a finished
row. -/
def ackSafe (cfg : Settings) (s : State) : Action → Bool
  | .worker w act =>
      match s.workers w, act with
      | .stamped msg _ stamp, .claim =>
          (s.jobs msg.jobId).all (!·.claimable cfg stamp) || (s.stream msg.id).all (!·.acked)
      | .acking msg, .ack | .acking msg, .ackRaise true _ =>
          s.owner msg.jobId ≠ some msg.id || (s.jobs msg.jobId).all (·.status.terminal)
      | .erring msg copy _ _, .recordError =>
          copy.status = .queued || (s.jobs msg.jobId).all (!·.status.terminal)
      | _, _ => true
  | .publisher p .unclaim =>
      match s.publishers p with
      | .unclaiming j _ _ => (s.jobs j).all (!·.status.terminal)
      | _ => true
  | _ => true

section
variable {cfg : Settings} {s t : State} {a : Action}

theorem owner_append {new : List Event} (h : t.events = new ++ s.events) (j : JobId) :
    t.owner j = (new.findSome? (Event.entryOf j)).or (s.owner j) := by
  simp only [State.owner, h, List.findSome?_append]

theorem PublisherMove.entryOf {now : Nat} {jobs : JobTable} {nextId : JobId}
    {nextEntry : EntryId} {p : PublisherId} {pc : PublisherPc} {act : PublisherAct}
    {eff : PublisherEffect} (h : PublisherMove cfg now jobs nextId nextEntry p pc act eff)
    (j : JobId) : eff.events.findSome? (Event.entryOf j) = none := by
  cases h <;> rfl

theorem step_owner (h : step cfg s a = some t) (j : JobId) :
    t.owner j = s.owner j ∨
    ∃ w msg copy stamp row job, a = .worker w .claim ∧ s.workers w = .stamped msg copy stamp ∧
      msg.jobId = j ∧ s.jobs j = some row ∧ row.claim cfg stamp = some job ∧
      t.jobs j = some job ∧ t.stream = s.stream ∧ t.owner j = some msg.id := by
  obtain hquiet | ⟨w, act, msg, eff, rfl, hmsg, hmove, rfl⟩ | ⟨p, act, eff, rfl, hmove, rfl⟩ :=
    step_cases h
  · left
    unfold State.owner
    rw [hquiet.events]
  · have howner := owner_append (applyWorker_events s w msg eff) j
    generalize hpc : s.workers w = pc at hmsg hmove
    cases hmove with
    | claimWon msg' copy stamp row job hrow hclaim =>
      cases hmsg
      by_cases hj : msg.jobId = j
      · subst hj
        refine .inr ⟨w, msg, copy, stamp, row, job, rfl, hpc, rfl, hrow, hclaim, ?_, rfl, ?_⟩
        · simp
        · rw [howner]
          simp [Event.entryOf]
      · left
        rw [howner]
        simp [Event.entryOf, hj]
    | _ => exact .inl howner
  · left
    rw [owner_append (applyPublisher_events s p eff) j, hmove.entryOf]
    rfl

/-- A pending entry stays pending, unless the handling that holds it acknowledges
it. -/
theorem step_pending (hwf : WellFormed s) (h : step cfg s a = some t) {e : EntryId}
    {entry : StreamEntry} (hentry : s.stream e = some entry) (hopen : entry.acked = false) :
    (∃ entry', t.stream e = some entry' ∧ entry'.message = entry.message ∧
      entry'.acked = false) ∨
    ∃ w act, a = .worker w act ∧ s.workers w = .acking entry.message ∧
      (act = .ack ∨ ∃ exc, act = .ackRaise true exc) ∧ t.jobs = s.jobs := by
  have hsame : t.stream e = s.stream e → ∃ entry', t.stream e = some entry' ∧
      entry'.message = entry.message ∧ entry'.acked = false :=
    fun heq => ⟨entry, heq.trans hentry, rfl, hopen⟩
  cases a with
  | tick elapsed =>
    cases h
    exact .inl (hsame rfl)
  | consume w =>
    left
    obtain ⟨first, -, hfirst, rfl⟩ := step_consume h
    by_cases he : e = s.cursor
    · subst he
      cases hfirst.symm.trans hentry
      exact ⟨_, Table.write_self .., rfl, hopen⟩
    · apply hsame
      simp [State.deliver, Table.write_of_ne _ _ he]
  | reclaim w e' =>
    left
    obtain ⟨old, _, -, hold, -, -, -, rfl⟩ := step_reclaim h
    by_cases he : e = e'
    · subst he
      cases hold.symm.trans hentry
      exact ⟨_, Table.write_self .., rfl, hopen⟩
    · apply hsame
      simp [State.deliver, Table.write_of_ne _ _ he]
  | publisher p act =>
    left
    obtain ⟨eff, -, rfl⟩ := step_publisher h
    apply hsame
    have hne : e ≠ s.nextEntry := Nat.ne_of_lt (hwf.stream_lt e entry hentry)
    cases hx : eff.xadd <;> simp [State.applyPublisher, hx, Table.write_of_ne _ _ hne]
  | worker w act =>
    obtain ⟨msg, eff, hmsg, hmove, rfl⟩ := step_worker h
    obtain ⟨held, hheld, hmessage⟩ := hwf.worker_entry w msg hmsg
    by_cases he : e = msg.id
    · subst he
      cases hheld.symm.trans hentry
      generalize hpc : s.workers w = pc at hmsg hmove
      cases hmove with
      | ack msg' =>
        cases hmsg
        right
        exact ⟨w, .ack, rfl, by rw [hpc, hmessage], .inl rfl, rfl⟩
      | ackRaise msg' landed exc =>
        cases hmsg
        cases landed with
        | false => exact .inl (hsame rfl)
        | true =>
          right
          exact ⟨w, .ackRaise true exc, rfl, by rw [hpc, hmessage], .inr ⟨exc, rfl⟩, rfl⟩
      | _ => exact .inl (hsame rfl)
    · left
      apply hsame
      cases hack : eff.ack <;>
        simp [State.applyWorker, State.ack, hack, Table.write_of_ne _ _ he]

theorem step_terminal (hwf : WellFormed s) (hok : ackSafe cfg s a) (h : step cfg s a = some t)
    {j : JobId} {row : PRJob} (hrow : s.jobs j = some row) (hfin : row.status.terminal = true) :
    ∃ job, t.jobs j = some job ∧ job.status.terminal = true := by
  obtain ⟨job, hjob, -⟩ := hwf.jobs_persist h hrow
  refine ⟨job, hjob, ?_⟩
  obtain hquiet | ⟨w, act, msg, eff, rfl, hmsg, hmove, rfl⟩ | ⟨p, act, eff, rfl, hmove, rfl⟩ :=
    step_cases h
  · rw [hquiet.jobs, hrow] at hjob
    cases hjob
    exact hfin
  · obtain hsame | ⟨new, rfl, hw, hnew⟩ := applyWorker_row s w msg eff j
    · rw [hsame, hrow] at hjob
      cases hjob
      exact hfin
    · cases hnew.symm.trans hjob
      obtain ⟨old, hold, hst⟩ := hmove.status hw
      cases hold.symm.trans hrow
      obtain hst | htarget := hst
      · rwa [hst]
      · rw [hrow] at hmove
        generalize hpc : s.workers w = pc at hmsg hmove
        cases hmove <;> simp only [reduceCtorEq, Option.some.injEq] at hw <;>
          simp only [WorkerAct.target, Option.some.injEq] at htarget
        case escalate => rw [← htarget]; rfl
        case succeed => rw [← htarget]; rfl
        case claimWon msg' copy stamp old new hold hclaim =>
          cases hold
          exact absurd hclaim (claim_terminal hfin)
        case release msg' copy stamp exc =>
          rw [(PRJob.release_eq_some.mp hw).1.1] at hfin
          cases hfin
        case recordError msg' copy exc cause =>
          cases hmsg
          have hqueued : copy.status = .queued := by
            simpa [ackSafe, hpc, hrow, hfin] using hok
          simp only [Option.map_some, Option.some.injEq] at hw
          rw [← hw, PRJob.recordError_status, hqueued, column_clean]
          exact hfin
  · obtain hsame | ⟨payload, rfl, -⟩ | ⟨new, hw, hnew⟩ := applyPublisher_row hmove j
    · rw [hsame, hrow] at hjob
      cases hjob
      exact hfin
    · cases hwf.jobs_nextId.symm.trans hrow
    · cases hnew.symm.trans hjob
      obtain ⟨old, hold, hst⟩ := hmove.status hw
      cases hold.symm.trans hrow
      generalize hpc : s.publishers p = pc at hmove
      cases hmove <;> simp only [reduceCtorEq, Option.some.injEq, Prod.mk.injEq] at hw
      case claimWon i caller old' new hold' hclaim =>
        obtain ⟨rfl, rfl⟩ := hw
        cases hold'.symm.trans hrow
        rw [(PRJob.claimPublish_eq_some.mp hclaim).1] at hfin
        cases hfin
      case confirm i copy msgId caller =>
        obtain hst | htarget := hst
        · rwa [hst]
        · cases htarget
      case unclaim i copy exc =>
        obtain ⟨row', hrow', hnew'⟩ := Option.map_eq_some_iff.mp hw
        cases hnew'
        simp [ackSafe, hpc, hrow, hfin] at hok

structure Retained (s : State) : Prop where
  owner_row : ∀ j, s.jobs j = none → s.owner j = none
  processing_owner : ∀ j row, s.jobs j = some row → row.status = .processing → s.owner j ≠ none
  acking_owner : ∀ w msg, s.workers w = .acking msg → ∀ row, s.jobs msg.jobId = some row →
    row.status.terminal = true ∨ s.owner msg.jobId ≠ none
  owner_open : ∀ j row e, s.jobs j = some row → row.status.terminal = false →
    s.owner j = some e → s.Outstanding j e
  fresh_open : ∀ j row e entry, s.jobs j = some row → row.status.terminal = false →
    s.owner j = none → s.stream e = some entry → entry.message.jobId = j → entry.acked = false

theorem step_owner_ne (h : step cfg s a = some t) {j : JobId} (hj : s.owner j ≠ none) :
    t.owner j ≠ none := by
  obtain hsame | ⟨_, _, _, _, _, _, -, -, -, -, -, -, -, hnew⟩ := step_owner h j
  · rwa [hsame]
  · rw [hnew]
    simp

theorem Retained.acked_ne (hs : Retained s) {w : WorkerId} {act : WorkerAct}
    {msg : StreamMessage} {row : PRJob} (hok : ackSafe cfg s (.worker w act))
    (hpc : s.workers w = .acking msg) (hact : act = .ack ∨ ∃ exc, act = .ackRaise true exc)
    (hrow : s.jobs msg.jobId = some row) (hlive : row.status.terminal = false) :
    ∃ e, s.owner msg.jobId = some e ∧ e ≠ msg.id ∧ s.Outstanding msg.jobId e := by
  have hne : s.owner msg.jobId ≠ some msg.id := by
    obtain rfl | ⟨exc, rfl⟩ := hact <;> simpa [ackSafe, hpc, hrow, hlive] using hok
  have hsome := (hs.acking_owner w msg hpc row hrow).resolve_left (by simp [hlive])
  obtain ⟨e, he⟩ := Option.ne_none_iff_exists'.mp hsome
  refine ⟨e, he, ?_, hs.owner_open _ row e hrow hlive he⟩
  intro heq
  exact hne (heq ▸ he)

theorem step_unfinished (hwf : WellFormed s) (hok : ackSafe cfg s a) (h : step cfg s a = some t)
    {j : JobId} {job : PRJob} (hjob : t.jobs j = some job) (hlive : job.status.terminal = false) :
    (∃ row, s.jobs j = some row ∧ row.status.terminal = false) ∨ s.jobs j = none := by
  cases hrow : s.jobs j with
  | none => exact .inr rfl
  | some row =>
    left
    refine ⟨row, rfl, ?_⟩
    by_contra hfin
    obtain ⟨job', hjob', hfin'⟩ := step_terminal hwf hok h hrow (by simpa using hfin)
    cases hjob'.symm.trans hjob
    rw [hlive] at hfin'
    cases hfin'

theorem Retained.step_outstanding (hs : Retained s) (hwf : WellFormed s) (hok : ackSafe cfg s a)
    (h : step cfg s a = some t) {j : JobId} {row : PRJob} {e : EntryId}
    (hrow : s.jobs j = some row) (hlive : row.status.terminal = false) (he : s.owner j = some e) :
    t.Outstanding j e := by
  obtain ⟨entry, hentry, hj, hopen⟩ := hs.owner_open j row e hrow hlive he
  obtain ⟨entry', hentry', hmsg, hopen'⟩ | ⟨w, act, rfl, hpc, hact, -⟩ :=
    step_pending hwf h hentry hopen
  · exact ⟨entry', hentry', hmsg ▸ hj, hopen'⟩
  · subst hj
    obtain ⟨hid, -⟩ := hwf.stream_job e entry hentry
    obtain ⟨e', he', hne, -⟩ := hs.acked_ne hok hpc hact hrow hlive
    cases he'.symm.trans he
    exact absurd hid.symm hne

theorem Retained.step_owner_open (hs : Retained s) (hwf : WellFormed s) (hok : ackSafe cfg s a)
    (h : step cfg s a = some t) (j : JobId) (job : PRJob) (e : EntryId)
    (hjob : t.jobs j = some job) (hlive : job.status.terminal = false)
    (he : t.owner j = some e) : t.Outstanding j e := by
  obtain hsame | ⟨w, msg, copy, stamp, row, new, rfl, hpc, rfl, hrow, hclaim, -, hstream, hnew⟩ :=
    step_owner h j
  · rw [hsame] at he
    obtain ⟨row, hrow, hlive⟩ | hnone := step_unfinished hwf hok h hjob hlive
    · exact hs.step_outstanding hwf hok h hrow hlive he
    · cases (hs.owner_row j hnone).symm.trans he
  · cases hnew.symm.trans he
    obtain ⟨entry, hentry, hmsg⟩ := hwf.worker_entry w msg (by rw [hpc]; rfl)
    have hclaimable := (PRJob.claim_eq_some.mp hclaim).1
    have hopen : entry.acked = false := by
      simpa [ackSafe, hpc, hrow, hclaimable, hentry] using hok
    exact ⟨entry, hstream ▸ hentry, by rw [hmsg], hopen⟩

theorem Retained.step_fresh_open (hs : Retained s) (hwf : WellFormed s) (hok : ackSafe cfg s a)
    (h : step cfg s a = some t) (j : JobId) (job : PRJob) (e : EntryId) (entry : StreamEntry)
    (hjob : t.jobs j = some job) (hlive : job.status.terminal = false) (he : t.owner j = none)
    (hentry : t.stream e = some entry) (hj : entry.message.jobId = j) : entry.acked = false := by
  have hnone : s.owner j = none := by
    by_contra hne
    exact step_owner_ne h hne he
  cases hold : s.stream e with
  | none =>
    obtain hsame | ⟨_, _, hsome, -⟩ | ⟨-, -, msg, _, _, _, hnew, -⟩ := step_stream h e
    · rw [hsame, hold] at hentry
      cases hentry
    · cases hsome.symm.trans hold
    · cases hnew.symm.trans hentry
      rfl
  | some old =>
    obtain ⟨entry', hentry', hmsg⟩ := hwf.stream_persist h hold
    cases hentry'.symm.trans hentry
    obtain ⟨-, row, hrow⟩ := hwf.stream_job e old hold
    rw [← hmsg, hj] at hrow
    obtain ⟨row', hrow', hlive'⟩ | hmissing := step_unfinished hwf hok h hjob hlive
    · have hopen := hs.fresh_open j row' e old hrow' hlive' hnone hold (hmsg ▸ hj)
      obtain ⟨entry'', hentry'', -, hopen'⟩ | ⟨w, act, rfl, hpc, hact, -⟩ :=
        step_pending hwf h hold hopen
      · cases hentry''.symm.trans hentry
        exact hopen'
      · rw [← hmsg] at hpc
        subst hj
        obtain ⟨e', he', -⟩ := hs.acked_ne hok hpc hact hrow' hlive'
        cases he'.symm.trans hnone
    · cases hmissing.symm.trans hrow

theorem Retained.step_processing_owner (hs : Retained s) (h : step cfg s a = some t)
    (j : JobId) (job : PRJob) (hjob : t.jobs j = some job) (hst : job.status = .processing) :
    t.owner j ≠ none := by
  have hkept : ∀ row, s.jobs j = some row → row.status = .processing → t.owner j ≠ none :=
    fun row hrow hold => step_owner_ne h (hs.processing_owner j row hrow hold)
  obtain hquiet | ⟨w, act, msg, eff, rfl, hmsg, hmove, rfl⟩ | ⟨p, act, eff, rfl, hmove, rfl⟩ :=
    step_cases h
  · exact hkept job (hquiet.jobs ▸ hjob) hst
  · obtain hsame | ⟨new, rfl, hw, hnew⟩ := applyWorker_row s w msg eff j
    · exact hkept job (hsame ▸ hjob) hst
    · cases hnew.symm.trans hjob
      obtain ⟨old, hold, heq | htarget⟩ := hmove.status hw
      · exact hkept old hold (heq ▸ hst)
      · rw [hst] at htarget
        rw [owner_append (applyWorker_events s w msg eff)]
        generalize s.workers w = pc at hmsg hmove
        cases hmove <;> simp only [WorkerAct.target, reduceCtorEq, Option.some.injEq] at htarget
        case claimWon msg' copy stamp row new hrow hclaim =>
          cases hmsg
          simp [Event.entryOf]
        case claimLost => cases hw
  · obtain hsame | ⟨payload, -, -, hnew, -⟩ | ⟨new, hw, hnew⟩ := applyPublisher_row hmove j
    · exact hkept job (hsame ▸ hjob) hst
    · cases hnew.symm.trans hjob
      cases hst
    · cases hnew.symm.trans hjob
      obtain ⟨old, hold, heq | htarget⟩ := hmove.status hw
      · exact hkept old hold (heq ▸ hst)
      · rw [hst] at htarget
        cases act <;> cases htarget

/-- A worker is about to acknowledge where it was, or its statement has just found
or left the row finished or claimed. -/
theorem Retained.step_acking (hs : Retained s) (h : step cfg s a = some t)
    (hadvisory : ∀ w copy, (s.workers w).advisory = some copy → copy.status.terminal = false)
    {w : WorkerId} {msg : StreamMessage} (hpc : t.workers w = .acking msg)
    (hdone : s.workers w ≠ .acking msg) {job : PRJob} (hjob : t.jobs msg.jobId = some job) :
    job.status.terminal = true ∨ s.owner msg.jobId ≠ none := by
  obtain hsame | ⟨e, entry, -, hnew⟩ | ⟨act, msg', eff, rfl, hmsg, hmove, rfl⟩ := step_workers h w
  · exact absurd (hsame ▸ hpc) hdone
  · cases hnew.symm.trans hpc
  · have hopen := hadvisory w
    rw [applyWorker_self] at hpc
    rw [applyWorker_jobs] at hjob
    generalize s.workers w = pc at hmsg hmove hopen
    cases hmove with
    | readMissing m hrow =>
      cases hmsg
      cases hpc
      simp [hrow] at hjob
    | readFinished m row hrow hfin =>
      cases hmsg
      cases hpc
      left
      rw [Table.write_none, hrow] at hjob
      cases hjob
      exact hfin
    | escalate m copy row hrow =>
      cases hmsg
      cases hpc
      left
      rw [Table.write_self] at hjob
      cases hjob
      have hne : JobStatus.dead ≠ copy.status := by
        intro heq
        have hlive := hopen copy rfl
        rw [← heq] at hlive
        cases hlive
      rw [PRJob.escalate_status, column_dirty hne]
      rfl
    | claimLost m copy stamp hrow =>
      cases hmsg
      cases hpc
      rw [Table.write_none] at hjob
      have hlost : job.claimable cfg stamp = false := by
        simpa [hjob, PRJob.claim] using hrow
      obtain hfin | hleased := PRJob.not_claimable.mp hlost
      · exact .inl hfin
      · exact .inr (hs.processing_owner _ job hjob (PRJob.leased_iff.mp hleased).1)
    | succeed m copy stamp row summary hrow =>
      cases hmsg
      cases hpc
      left
      rw [Table.write_self] at hjob
      cases hjob
      have hne : JobStatus.done ≠ copy.status := by
        intro heq
        have hlive := hopen copy rfl
        rw [← heq] at hlive
        cases hlive
      rw [PRJob.finish_status, column_dirty hne]
      rfl
    | _ => cases hpc

theorem Retained.step_acking_owner (hs : Retained s) (hwf : WellFormed s)
    (hadvisory : ∀ w copy, (s.workers w).advisory = some copy → copy.status.terminal = false)
    (hok : ackSafe cfg s a) (h : step cfg s a = some t) (w : WorkerId) (msg : StreamMessage)
    (hpc : t.workers w = .acking msg) (job : PRJob) (hjob : t.jobs msg.jobId = some job) :
    job.status.terminal = true ∨ t.owner msg.jobId ≠ none := by
  by_cases hold : s.workers w = .acking msg
  · obtain ⟨entry, hentry, hmsg⟩ := hwf.worker_entry w msg (by rw [hold]; rfl)
    obtain ⟨-, row, hrow⟩ := hwf.stream_job _ entry hentry
    rw [hmsg] at hrow
    obtain hfin | hne := hs.acking_owner w msg hold row hrow
    · left
      obtain ⟨job', hjob', hfin'⟩ := step_terminal hwf hok h hrow hfin
      cases hjob'.symm.trans hjob
      exact hfin'
    · exact .inr (step_owner_ne h hne)
  · exact (hs.step_acking h hadvisory hpc hold hjob).imp id (step_owner_ne h)

theorem Retained.step_owner_row (hs : Retained s) (hwf : WellFormed s)
    (h : step cfg s a = some t) (j : JobId) (hnone : t.jobs j = none) : t.owner j = none := by
  obtain hsame | ⟨_, _, _, _, _, _, -, -, -, -, -, hnew, -, -⟩ := step_owner h j
  · rw [hsame]
    apply hs.owner_row
    cases hrow : s.jobs j with
    | none => rfl
    | some row =>
      obtain ⟨job, hjob, -⟩ := hwf.jobs_persist h hrow
      cases hjob.symm.trans hnone
  · cases hnew.symm.trans hnone

theorem Retained.step (hs : Retained s) (hwf : WellFormed s)
    (hadvisory : ∀ w copy, (s.workers w).advisory = some copy → copy.status.terminal = false)
    (hok : ackSafe cfg s a) (h : step cfg s a = some t) : Retained t where
  owner_row := hs.step_owner_row hwf h
  processing_owner := hs.step_processing_owner h
  acking_owner := hs.step_acking_owner hwf hadvisory hok h
  owner_open := hs.step_owner_open hwf hok h
  fresh_open := hs.step_fresh_open hwf hok h

theorem Retained.outstanding (hs : Retained s) {j : JobId} {row : PRJob} {e : EntryId}
    {entry : StreamEntry} (hrow : s.jobs j = some row) (hlive : row.status.terminal = false)
    (hentry : s.stream e = some entry) (hj : entry.message.jobId = j) :
    ∃ e', s.Outstanding j e' := by
  cases howner : s.owner j with
  | some e' => exact ⟨e', hs.owner_open j row e' hrow hlive howner⟩
  | none => exact ⟨e, entry, hentry, hj, hs.fresh_open j row e entry hrow hlive howner hentry hj⟩

theorem Retained.initial : Retained State.initial where
  owner_row _ _ := rfl
  processing_owner _ _ hrow := by cases hrow
  acking_owner _ _ hpc := by cases hpc
  owner_open _ _ _ hrow := by cases hrow
  fresh_open _ _ _ _ hrow := by cases hrow

end

theorem Reachable.retained {cfg : Settings} {s : State}
    (h : (pipeline cfg).Reachable (fun s a => ackSafe cfg s a) s) : Retained s := by
  refine Reachable.invariant (J := fun s => WellFormed s ∧
    ∀ w copy, (s.workers w).advisory = some copy → copy.status.terminal = false) ?_
    Retained.initial ?_ h
  · intro u hu
    exact ⟨Reachable.wellFormed hu, Reachable.advisory_open hu⟩
  · intro u a v hJ hok hstep hs
    exact hs.step hJ.1 hJ.2 hok hstep

/-- An entry is acknowledged only when the job is missing or finished or has another
pending entry, and an unfinished job that was published has a pending entry. -/
theorem ack_sound {cfg : Settings} {s : State}
    (h : (pipeline cfg).Reachable (fun s a => ackSafe cfg s a) s) :
    (∀ a t e entry entry', ackSafe cfg s a → step cfg s a = some t →
      s.stream e = some entry → entry.acked = false →
      t.stream e = some entry' → entry'.acked = true →
        (s.jobs entry.message.jobId).all (·.status.terminal) = true ∨
        ∃ e', e' ≠ e ∧ s.Outstanding entry.message.jobId e') ∧
    ∀ j row e entry, s.jobs j = some row → row.status.terminal = false →
      s.stream e = some entry → entry.message.jobId = j → ∃ e', s.Outstanding j e' := by
  have hwf := Reachable.wellFormed h
  have hs := Reachable.retained h
  constructor
  · intro a t e entry entry' hok hstep hentry hopen hentry' hacked
    obtain ⟨new, hnew, -, hnot⟩ | ⟨w, act, rfl, hpc, hact, -⟩ :=
      step_pending hwf hstep hentry hopen
    · cases hnew.symm.trans hentry'
      rw [hacked] at hnot
      cases hnot
    · obtain ⟨hid, row, hrow⟩ := hwf.stream_job e entry hentry
      cases hlive : row.status.terminal with
      | true => exact .inl (by simp [hrow, hlive])
      | false =>
        obtain ⟨e', -, hne, hother⟩ := hs.acked_ne hok hpc hact hrow hlive
        exact .inr ⟨e', hid ▸ hne, hother⟩
  · intro j row e entry hrow hlive hentry hj
    exact hs.outstanding hrow hlive hentry hj

/-- The first handling is waiting for its retry, so the job is still unfinished. -/
def retryState : State :=
  (pipeline .small).after (ingestRun 0 ++ .consume 0 ::
    workerRun 0 [.read, .stampClaim, .claim, .raise "boom", .release, .recordError]) (by decide)

theorem ack_sound_retry : ∃ e, retryState.Outstanding 0 e :=
  (ack_sound (Reachable.after (by decide) (by decide))).2 0 _ 0 _
    (Option.some_get (by decide)).symm (by decide) (Option.some_get (by decide)).symm (by decide)

/-- The claim comes a moment after the delivery, the process dies, and the entry is
delivered again before the lease ends. -/
def loseRun : List Action :=
  ingestRun 0 ++ [.consume 0, .worker 0 .read, .tick 500] ++
    workerRun 0 [.stampClaim, .claim, .crash] ++
    [.tick 500, .reclaim 1 0] ++ workerRun 1 [.read, .stampClaim, .claim]

def loseState : State := (pipeline .small).after loseRun (by decide)

def lostState : State := (pipeline .small).after (loseRun ++ [.worker 1 .ack]) (by decide)

theorem outstanding_small {s : State} (h : (pipeline .small).Reachable anyStep s)
    (hnext : s.nextEntry = 1) {j : JobId} {e : EntryId} (he : s.Outstanding j e) :
    e = 0 ∧ (s.stream 0).map (·.acked) = some false := by
  obtain ⟨entry, hentry, -, hopen⟩ := he
  have hlt := (Reachable.wellFormed h).stream_lt e entry hentry
  rw [hnext] at hlt
  obtain rfl : e = 0 := Nat.lt_one_iff.mp hlt
  exact ⟨rfl, by rw [hentry, Option.map_some, hopen]⟩

/-- The second delivery loses the claim to the first delivery of the same entry and
acknowledges it; no entry is left for the job, which stays PROCESSING. -/
theorem last_entry_acked :
    (pipeline .small).Reachable anyStep loseState ∧
    step .small loseState (.worker 1 .ack) = some lostState ∧
    (loseState.stream 0).map (·.acked) = some false ∧
    (lostState.stream 0).map (·.acked) = some true ∧
    (loseState.jobs 0).map (·.status) = some .processing ∧
    (∀ e, e ≠ 0 → ¬ loseState.Outstanding 0 e) ∧ ∀ e, ¬ lostState.Outstanding 0 e := by
  have hlose : (pipeline .small).Reachable anyStep loseState :=
    Reachable.after _ (System.Admits.any _ _)
  have hlost : (pipeline .small).Reachable anyStep lostState :=
    Reachable.after _ (System.Admits.any _ _)
  refine ⟨hlose, ?_, by decide, by decide, by decide, ?_, ?_⟩
  · rfl
  · intro e hne he
    exact hne (outstanding_small hlose (by decide) he).1
  · intro e he
    have hacked : (lostState.stream 0).map (·.acked) = some true := by decide
    rw [(outstanding_small hlost (by decide) he).2] at hacked
    cases hacked

end AutoPR.Jobs
