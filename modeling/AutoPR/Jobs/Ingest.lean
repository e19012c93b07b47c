import AutoPR.Jobs.Outbox

/-! Exactly-once creation and publication. One row a dedup key, inserted by one
call, found by every call with that key, and published once; without a fault the
entry is there when the calls have returned, and a sweep leaves none of its rows
PENDING. -/
namespace AutoPR.Jobs
open UnitOfWork Transition OneShot

def Event.inserts (key : String) : Event → Bool
  | .inserted _ _ k => k = key
  | _ => false

def State.KeyOf (s : State) (j : JobId) (key : String) : Prop :=
  ∃ row, s.jobs j = some row ∧ row.dedupKey = key

def Caller.isIngest : Caller → Bool
  | .ingest _ => true
  | .reconcile _ _ => false

/-- The points that a call of `ingest` with this key can be at. -/
def Serves (cfg : Settings) (s : State) (key : String) : PublisherPc → Prop
  | .idle | .sweeping _ _ | .swept _ => False
  | .inserting payload | .selecting payload _ => payload.dedupKey cfg.sha256 = key
  | .claiming j caller | .refreshing j caller | .publishing j _ caller
  | .confirming j _ _ caller => caller.isIngest = true ∧ s.KeyOf j key
  | .returned j _ => s.KeyOf j key
  | .unclaiming _ _ _ | .raised | .crashed => True

def Caller.created : Caller → Bool
  | .ingest created => created
  | .reconcile _ _ => false

/-- The job that a call will return as created. -/
def PublisherPc.created : PublisherPc → Option JobId
  | .claiming j caller | .refreshing j caller | .publishing j _ caller
  | .confirming j _ _ caller => if caller.created then some j else none
  | .returned j created => if created then some j else none
  | _ => none

theorem Serves.mono {cfg : Settings} {s t : State} {key : String} {pc : PublisherPc}
    (hkeys : ∀ j, s.KeyOf j key → t.KeyOf j key) (h : Serves cfg s key pc) :
    Serves cfg t key pc := by
  cases pc with
  | claiming j caller | refreshing j caller | publishing j copy caller
  | confirming j copy msgId caller => exact ⟨h.1, hkeys j h.2⟩
  | returned j created => exact hkeys j h
  | _ => exact h

theorem Serves.resume {cfg : Settings} {s : State} {key : String} {j : JobId} {caller : Caller}
    {published : Bool} (h : caller.isIngest = true ∧ s.KeyOf j key) :
    Serves cfg s key (caller.resume j published) := by
  cases caller with
  | ingest created => exact h.2
  | reconcile todo count => cases h.1

theorem findJob_keyOf {s : State} {j : JobId} {key : String}
    (h : findJob s.jobs s.nextId key = some j) : s.KeyOf j key :=
  findJob_eq_some h

theorem PublisherMove.serves {cfg : Settings} {s : State} {p : PublisherId} {pc : PublisherPc}
    {act : PublisherAct} {eff : PublisherEffect} {key : String}
    (h : PublisherMove cfg s.now s.jobs s.nextId s.nextEntry p pc act eff)
    (hs : Serves cfg s key pc) : Serves cfg s key eff.pc := by
  cases h with
  | startIngest | startReconcile | nextJob | nextDone => cases hs
  | insertLost | insertWon => exact hs
  | select payload created j hfind => exact ⟨rfl, hs ▸ findJob_keyOf hfind⟩
  | selectDuplicate payload j row hfind => exact hs ▸ findJob_keyOf hfind
  | claimWon | refresh | publishOk => exact hs
  | claimLost | confirm => exact Serves.resume hs
  | publishLanded | publishFailed | unclaim | selectMissing | refreshMissing | crash => trivial

section
variable {cfg : Settings} {s t : State} {a : Action}

theorem keyOf_persist (hwf : WellFormed s) (h : step cfg s a = some t) {j : JobId} {key : String}
    (hj : s.KeyOf j key) : t.KeyOf j key := by
  obtain ⟨row, hrow, hkey⟩ := hj
  obtain ⟨job, hjob, heq⟩ := hwf.jobs_persist h hrow
  exact ⟨job, hjob, heq.trans hkey⟩

theorem step_keyOf (h : step cfg s a = some t) {j : JobId} {key : String} (hj : t.KeyOf j key) :
    s.KeyOf j key ∨ (j = s.nextId ∧ findJob s.jobs s.nextId key = none) := by
  obtain ⟨job, hjob, hkey⟩ := hj
  obtain hsame | ⟨rfl, -, payload, hnew, hfind, -⟩ | ⟨row, new, hrow, hnew, hwrite⟩ := step_jobs h j
  · exact .inl ⟨job, hsame ▸ hjob, hkey⟩
  · cases hnew.symm.trans hjob
    exact .inr ⟨rfl, hkey ▸ hfind⟩
  · cases hnew.symm.trans hjob
    exact .inl ⟨row, hrow, hwrite.dedupKey ▸ hkey⟩

theorem WorkerMove.no_ingest {now : Nat} {row : Option PRJob} {pc : WorkerPc} {act : WorkerAct}
    {eff : WorkerEffect} (h : WorkerMove cfg now row pc act eff) (p : PublisherId) (j : JobId)
    (key : String) : .called p key ∉ eff.events ∧ .inserted p j key ∉ eff.events ∧
      eff.events.countP (Event.inserts key) = 0 := by
  cases h <;> simp [Event.inserts]

theorem PublisherMove.logs {now : Nat} {jobs : JobTable} {nextId : JobId} {nextEntry : EntryId}
    {p : PublisherId} {pc : PublisherPc} {act : PublisherAct} {eff : PublisherEffect}
    (h : PublisherMove cfg now jobs nextId nextEntry p pc act eff) :
    (∃ payload, eff.pc = .inserting payload ∧
      eff.events = [.called p (payload.dedupKey cfg.sha256)]) ∨
    (∃ payload, eff.pc = .selecting payload true ∧
      findJob jobs nextId (payload.dedupKey cfg.sha256) = none ∧
      eff.insert = some (payload.newJob cfg now) ∧
      eff.events = [.inserted p nextId (payload.dedupKey cfg.sha256)]) ∨
    ((∀ i key, .called i key ∉ eff.events) ∧ (∀ i j key, .inserted i j key ∉ eff.events) ∧
      ∀ key, eff.events.countP (Event.inserts key) = 0) := by
  cases h with
  | startIngest payload => exact .inl ⟨payload, rfl, rfl⟩
  | insertWon payload hfind => exact .inr (.inl ⟨payload, rfl, hfind, rfl, rfl⟩)
  | _ => exact .inr (.inr (by simp [Event.inserts]))

end

structure CreatedOnce (cfg : Settings) (s : State) : Prop where
  key_unique : ∀ i j key, s.KeyOf i key → s.KeyOf j key → i = j
  inserted_row : ∀ p j key, .inserted p j key ∈ s.events → s.KeyOf j key
  inserted_once : ∀ key, s.events.countP (Event.inserts key) ≤ 1
  called : ∀ p key, .called p key ∈ s.events → Serves cfg s key (s.publishers p)
  selecting : ∀ p payload, s.publishers p = .selecting payload true →
    ∃ j, .inserted p j (payload.dedupKey cfg.sha256) ∈ s.events
  created : ∀ p j, (s.publishers p).created = some j → ∃ key, .inserted p j key ∈ s.events

theorem CreatedOnce.initial (cfg : Settings) : CreatedOnce cfg State.initial where
  key_unique _ _ _ hi := by
    obtain ⟨_, hrow, -⟩ := hi
    cases hrow
  inserted_row _ _ _ hmem := by cases hmem
  inserted_once _ := Nat.zero_le _
  called _ _ hmem := by cases hmem
  selecting _ _ hpc := by cases hpc
  created _ _ hpc := by cases hpc

section
variable {cfg : Settings} {s t : State} {a : Action}

theorem key_taken (hwf : WellFormed s) {j : JobId} {key : String} (hj : s.KeyOf j key) :
    findJob s.jobs s.nextId key ≠ none := by
  intro hnone
  obtain ⟨row, hrow, hkey⟩ := hj
  exact findJob_eq_none hnone (hwf.jobs_lt j row hrow) hrow hkey

theorem step_inserted (h : step cfg s a = some t) {p : PublisherId} {j : JobId} {key : String}
    (hmem : .inserted p j key ∈ t.events) :
    .inserted p j key ∈ s.events ∨ (j = s.nextId ∧ t.KeyOf j key) := by
  obtain hquiet | ⟨w, act, msg, eff, -, -, hmove, rfl⟩ | ⟨p', act, eff, -, hmove, rfl⟩ :=
    step_cases h
  · exact .inl (hquiet.events ▸ hmem)
  · exact .inl ((List.mem_append.mp hmem).resolve_left (hmove.no_ingest p j key).2.1)
  · obtain hnew | hold := List.mem_append.mp hmem
    · obtain ⟨payload, -, hev⟩ | ⟨payload, -, -, hinsert, hev⟩ | ⟨-, hnone, -⟩ := hmove.logs
      · simp [hev] at hnew
      · rw [hev, List.mem_singleton] at hnew
        cases hnew
        exact .inr ⟨rfl, payload.newJob cfg s.now, by simp [State.applyPublisher, hinsert], rfl⟩
      · exact absurd hnew (hnone p j key)
    · exact .inl hold

theorem CreatedOnce.step_inserted_once (hwf : WellFormed s) (h : step cfg s a = some t)
    (hs : CreatedOnce cfg s) (key : String) : t.events.countP (Event.inserts key) ≤ 1 := by
  have hold := hs.inserted_once key
  obtain hquiet | ⟨w, act, msg, eff, -, -, hmove, rfl⟩ | ⟨p, act, eff, -, hmove, rfl⟩ :=
    step_cases h
  · rw [hquiet.events]
    exact hold
  · rw [applyWorker_events, List.countP_append, (hmove.no_ingest 0 0 key).2.2, Nat.zero_add]
    exact hold
  · rw [applyPublisher_events, List.countP_append]
    obtain ⟨payload, -, hev⟩ | ⟨payload, -, hfind, -, hev⟩ | ⟨-, -, hzero⟩ := hmove.logs
    · simpa [hev, Event.inserts] using hold
    · by_cases hkey : payload.dedupKey cfg.sha256 = key
      · have hfresh : s.events.countP (Event.inserts key) = 0 := by
          rw [List.countP_eq_zero]
          intro ev hmem hins
          cases ev <;> simp only [Event.inserts, decide_eq_true_eq, Bool.false_eq_true] at hins
          subst hins
          exact key_taken hwf (hs.inserted_row _ _ _ hmem) (hkey ▸ hfind)
        simp [hev, hfresh, Event.inserts, hkey]
      · simpa [hev, Event.inserts, hkey] using hold
    · rw [hzero, Nat.zero_add]
      exact hold

theorem CreatedOnce.step_called (hwf : WellFormed s) (h : step cfg s a = some t)
    (hs : CreatedOnce cfg s) (p : PublisherId) (key : String) (hmem : .called p key ∈ t.events) :
    Serves cfg t key (t.publishers p) := by
  have hkeys : ∀ j, s.KeyOf j key → t.KeyOf j key := fun _ => keyOf_persist hwf h
  obtain hquiet | ⟨w, act, msg, eff, -, -, hmove, rfl⟩ | ⟨p', act, eff, -, hmove, rfl⟩ :=
    step_cases h
  · rw [hquiet.publishers]
    exact (hs.called p key (hquiet.events ▸ hmem)).mono hkeys
  · have hold := (List.mem_append.mp hmem).resolve_left (hmove.no_ingest p 0 key).1
    exact (hs.called p key hold).mono hkeys
  · by_cases hp : p = p'
    · subst hp
      rw [applyPublisher_self]
      obtain hnew | hold := List.mem_append.mp hmem
      · obtain ⟨payload, hpc, hev⟩ | ⟨payload, -, -, -, hev⟩ | ⟨hnone, -, -⟩ := hmove.logs
        · rw [hev, List.mem_singleton] at hnew
          cases hnew
          rw [hpc]
          rfl
        · simp [hev] at hnew
        · exact absurd hnew (hnone p key)
      · exact (hmove.serves (hs.called p key hold)).mono hkeys
    · rw [applyPublisher_of_ne _ _ _ hp]
      refine (hs.called p key ((List.mem_append.mp hmem).resolve_left ?_)).mono hkeys
      intro hnew
      obtain ⟨payload, -, hev⟩ | ⟨payload, -, -, -, hev⟩ | ⟨hnone, -, -⟩ := hmove.logs
      · rw [hev, List.mem_singleton] at hnew
        cases hnew
        exact hp rfl
      · simp [hev] at hnew
      · exact hnone p key hnew

theorem Caller.resume_created {caller : Caller} {i j : JobId} {published : Bool}
    (h : (caller.resume i published).created = some j) :
    (if caller.created then some i else none) = some j := by
  cases caller with
  | reconcile todo count => cases h
  | ingest created => exact h

theorem CreatedOnce.step_created (hs : CreatedOnce cfg s) {p : PublisherId} {act : PublisherAct}
    {eff : PublisherEffect} {j : JobId}
    (hmove : PublisherMove cfg s.now s.jobs s.nextId s.nextEntry p (s.publishers p) act eff)
    (hpc : eff.pc.created = some j) : ∃ key, .inserted p j key ∈ s.events := by
  have hcreated := hs.created p j
  have hselecting := hs.selecting p
  generalize s.publishers p = pc at hmove hcreated hselecting
  cases hmove with
  | select payload created i hfind =>
    cases created with
    | false => cases hpc
    | true =>
      obtain rfl : i = j := Option.some.inj hpc
      obtain ⟨i', hmem⟩ := hselecting payload rfl
      have hi := hs.key_unique _ _ _ (hs.inserted_row p i' _ hmem) (findJob_keyOf hfind)
      exact ⟨_, hi ▸ hmem⟩
  | claimLost i caller | confirm i copy msgId caller =>
    exact hcreated (Caller.resume_created hpc)
  | claimWon | refresh | publishOk => exact hcreated hpc
  | _ => cases hpc

theorem CreatedOnce.step (hwf : WellFormed s) (h : step cfg s a = some t)
    (hs : CreatedOnce cfg s) : CreatedOnce cfg t where
  key_unique i j key hi hj := by
    obtain hi | ⟨rfl, hnone⟩ := step_keyOf h hi
    · obtain hj | ⟨-, hnone⟩ := step_keyOf h hj
      · exact hs.key_unique i j key hi hj
      · exact absurd hnone (key_taken hwf hi)
    · obtain hj | ⟨rfl, -⟩ := step_keyOf h hj
      · exact absurd hnone (key_taken hwf hj)
      · rfl
  inserted_row p j key hmem := by
    obtain hold | ⟨-, hkey⟩ := step_inserted h hmem
    · exact keyOf_persist hwf h (hs.inserted_row p j key hold)
    · exact hkey
  inserted_once := hs.step_inserted_once hwf h
  called := hs.step_called hwf h
  selecting p payload hpc := by
    obtain hquiet | ⟨w, act, msg, eff, -, -, -, rfl⟩ | ⟨p', act, eff, -, hmove, rfl⟩ :=
      step_cases h
    · rw [hquiet.publishers] at hpc
      rw [hquiet.events]
      exact hs.selecting p payload hpc
    · obtain ⟨j, hmem⟩ := hs.selecting p payload hpc
      exact ⟨j, List.mem_append_right _ hmem⟩
    · by_cases hp : p = p'
      · subst hp
        rw [applyPublisher_self] at hpc
        obtain ⟨other, hother, -⟩ | ⟨new, hnew, -, -, hev⟩ | hnone := hmove.logs
        · cases hpc.symm.trans hother
        · cases hpc.symm.trans hnew
          exact ⟨s.nextId, by simp [hev]⟩
        · generalize s.publishers p = pc at hmove
          cases hmove with
          | insertWon payload => exact absurd List.mem_cons_self (hnone.2.1 p s.nextId _)
          | claimLost i caller | confirm i copy msgId caller => cases caller <;> cases hpc
          | _ => cases hpc
      · rw [applyPublisher_of_ne _ _ _ hp] at hpc
        obtain ⟨j, hmem⟩ := hs.selecting p payload hpc
        exact ⟨j, List.mem_append_right _ hmem⟩
  created p j hpc := by
    obtain hquiet | ⟨w, act, msg, eff, -, -, -, rfl⟩ | ⟨p', act, eff, -, hmove, rfl⟩ :=
      step_cases h
    · rw [hquiet.publishers] at hpc
      rw [hquiet.events]
      exact hs.created p j hpc
    · obtain ⟨key, hmem⟩ := hs.created p j hpc
      exact ⟨key, List.mem_append_right _ hmem⟩
    · by_cases hp : p = p'
      · subst hp
        rw [applyPublisher_self] at hpc
        obtain ⟨key, hmem⟩ := hs.step_created hmove hpc
        exact ⟨key, List.mem_append_right _ hmem⟩
      · rw [applyPublisher_of_ne _ _ _ hp] at hpc
        obtain ⟨key, hmem⟩ := hs.created p j hpc
        exact ⟨key, List.mem_append_right _ hmem⟩

end

theorem Reachable.createdOnce {cfg : Settings} {ok : State → Action → Prop} {s : State}
    (h : (pipeline cfg).Reachable ok s) : CreatedOnce cfg s :=
  Reachable.invariant (fun _ => Reachable.wellFormed) (CreatedOnce.initial cfg)
    (fun _ _ _ hwf _ hstep hs => hs.step hwf hstep) h

/-- No publish raises and no publisher dies. -/
def faultFree : Action → Bool
  | .publisher _ .crash | .publisher _ (.publish _ (.raised _ _)) => false
  | _ => true

inductive Creating (cfg : Settings) (j : JobId) (key : String) : PublisherPc → Prop where
  | selecting (payload) (h : payload.dedupKey cfg.sha256 = key) :
      Creating cfg j key (.selecting payload true)
  | claiming (caller) : Creating cfg j key (.claiming j caller)

structure Faultless (cfg : Settings) (s : State) : Prop where
  not_unclaiming : ∀ p j copy exc, s.publishers p ≠ .unclaiming j copy exc
  raises : ∀ j, s.publishRaises j = 0
  entry_published : ∀ e entry, s.stream e = some entry →
    .published entry.message.jobId e ∈ s.events
  pending : ∀ j row, s.jobs j = some row → row.status = .pending →
    ∃ p, Creating cfg j row.dedupKey (s.publishers p)

theorem Faultless.initial (cfg : Settings) : Faultless cfg State.initial where
  not_unclaiming _ _ _ _ hpc := by cases hpc
  raises _ := rfl
  entry_published _ _ hentry := by cases hentry
  pending _ _ hrow := by cases hrow

section
variable {cfg : Settings} {s t : State} {a : Action}

theorem Faultless.step_pending (hs : Faultless cfg s) (h : step cfg s a = some t) {j : JobId}
    {job : PRJob} (hjob : t.jobs j = some job) (hpending : job.status = .pending) :
    (∃ row, s.jobs j = some row ∧ row.status = .pending ∧ row.dedupKey = job.dedupKey) ∨
    (j = s.nextId ∧ ∃ p payload, t.publishers p = .selecting payload true ∧
      payload.dedupKey cfg.sha256 = job.dedupKey) := by
  obtain hquiet | ⟨w, act, msg, eff, -, -, hmove, rfl⟩ | ⟨p, act, eff, -, hmove, rfl⟩ :=
    step_cases h
  · exact .inl ⟨job, hquiet.jobs ▸ hjob, hpending, rfl⟩
  · obtain hsame | ⟨new, rfl, hw, hnew⟩ := applyWorker_row s w msg eff j
    · exact .inl ⟨job, hsame ▸ hjob, hpending, rfl⟩
    · cases hnew.symm.trans hjob
      obtain ⟨row, hrow, hst⟩ := hmove.status hw
      obtain ⟨row', hrow', hwrite⟩ := hmove.write hw
      cases hrow'.symm.trans hrow
      rw [hpending] at hst
      refine .inl ⟨row, hrow, (hst.resolve_right fun htarget => ?_).symm, hwrite.dedupKey.symm⟩
      cases act <;> cases htarget
  · cases hi : eff.insert with
    | some new =>
      obtain ⟨payload, -, hpc, -, rfl, -, -⟩ := hmove.insert hi
      by_cases hj : j = s.nextId
      · subst hj
        have hnew : (s.applyPublisher p eff).jobs s.nextId = some (payload.newJob cfg s.now) := by
          simp [State.applyPublisher, hi]
        cases hnew.symm.trans hjob
        exact .inr ⟨rfl, p, payload, by rw [applyPublisher_self, hpc], rfl⟩
      · have hsame : (s.applyPublisher p eff).jobs j = s.jobs j := by
          simp [State.applyPublisher, hi, Table.write_of_ne _ _ hj]
        exact .inl ⟨job, hsame ▸ hjob, hpending, rfl⟩
    | none =>
      obtain hsame | ⟨payload, -, hnext, -⟩ | ⟨new, hw, hnew⟩ := applyPublisher_row hmove j
      · exact .inl ⟨job, hsame ▸ hjob, hpending, rfl⟩
      · simp [State.applyPublisher, hi] at hnext
      · cases hnew.symm.trans hjob
        obtain ⟨row, hrow, hst⟩ := hmove.status hw
        obtain ⟨row', hrow', hwrite⟩ := hmove.write hw
        cases hrow'.symm.trans hrow
        rw [hpending] at hst
        refine .inl ⟨row, hrow, (hst.resolve_right fun htarget => ?_).symm, hwrite.dedupKey.symm⟩
        cases act with
        | unclaim =>
          have hpc := hs.not_unclaiming p
          generalize s.publishers p = pc at hmove hpc
          cases hmove with
          | unclaim i copy exc => exact hpc i copy exc rfl
        | _ => cases htarget

theorem Faultless.step_not_unclaiming (hs : Faultless cfg s) (hok : faultFree a)
    (h : step cfg s a = some t) (p : PublisherId) (j : JobId) (copy : PRJob) (exc : String) :
    t.publishers p ≠ .unclaiming j copy exc := by
  have hold := hs.not_unclaiming p j copy exc
  obtain hquiet | ⟨w, act, msg, eff, -, -, -, rfl⟩ | ⟨p', act, eff, rfl, hmove, rfl⟩ :=
    step_cases h
  · rwa [hquiet.publishers]
  · exact hold
  · by_cases hp : p = p'
    · subst hp
      rw [applyPublisher_self]
      generalize s.publishers p = pc at hmove
      intro hpc
      cases hmove with
      | publishLanded | publishFailed => cases hok
      | claimLost i caller | confirm i copy' msgId caller => cases caller <;> cases hpc
      | _ => cases hpc
    · rwa [applyPublisher_of_ne _ _ _ hp]

theorem Faultless.step_raises (hs : Faultless cfg s) (hok : faultFree a)
    (h : step cfg s a = some t) (j : JobId) : t.publishRaises j = 0 := by
  have hold := hs.raises j
  unfold State.publishRaises at hold ⊢
  obtain hquiet | ⟨w, act, msg, eff, -, -, hmove, rfl⟩ | ⟨p, act, eff, rfl, hmove, rfl⟩ :=
    step_cases h
  · rw [hquiet.events, hold]
  · rw [applyWorker_events, List.countP_append, (hmove.publishes_none j).2, hold]
  · rw [applyPublisher_events, List.countP_append, hold, Nat.add_zero]
    generalize s.publishers p = pc at hmove
    cases hmove with
    | publishLanded | publishFailed => cases hok
    | _ => rfl

theorem Faultless.step_entry (hs : Faultless cfg s) (hok : faultFree a)
    (h : step cfg s a = some t) (e : EntryId) (entry : StreamEntry)
    (hentry : t.stream e = some entry) : .published entry.message.jobId e ∈ t.events := by
  have hkeep : ∀ ev ∈ s.events, ev ∈ t.events := by
    obtain hquiet | ⟨w, act, msg, eff, -, -, -, rfl⟩ | ⟨p, act, eff, -, -, rfl⟩ := step_cases h
    · rw [hquiet.events]
      exact fun _ => id
    · exact fun _ => List.mem_append_right _
    · exact fun _ => List.mem_append_right _
  obtain hsame | ⟨old, new, hold, hnew, hmsg, -⟩ | ⟨rfl, hnext, msg, _, _, _, hnew, -⟩ :=
    step_stream h e
  · exact hkeep _ (hs.entry_published e entry (hsame ▸ hentry))
  · cases hnew.symm.trans hentry
    exact hmsg ▸ hkeep _ (hs.entry_published e old hold)
  · cases hnew.symm.trans hentry
    obtain hquiet | ⟨w, act, _, eff, -, -, -, rfl⟩ | ⟨p, act, eff, rfl, hmove, rfl⟩ := step_cases h
    · rw [hquiet.nextEntry] at hnext
      exact absurd hnext.symm (Nat.succ_ne_self _)
    · exact absurd (show s.nextEntry = s.nextEntry + 1 from hnext).symm (Nat.succ_ne_self _)
    · generalize s.publishers p = pc at hmove
      cases hmove with
      | publishOk i copy caller correlationId =>
        simp only [State.applyPublisher, Table.write_self, Option.some.injEq] at hnew
        cases hnew
        exact List.mem_cons_self
      | publishLanded | publishFailed => cases hok
      | _ => exact absurd (show s.nextEntry = s.nextEntry + 1 from hnext).symm (Nat.succ_ne_self _)

theorem Creating.step {p : PublisherId} {act : PublisherAct} {eff : PublisherEffect} {j : JobId}
    {row : PRJob} (hc : CreatedOnce cfg s) (hok : faultFree (.publisher p act))
    (hmove : PublisherMove cfg s.now s.jobs s.nextId s.nextEntry p (s.publishers p) act eff)
    (hrow : s.jobs j = some row) (hj : j < s.nextId) (hpending : row.status = .pending)
    (h : Creating cfg j row.dedupKey (s.publishers p)) :
    Creating cfg j row.dedupKey eff.pc ∨
      ∃ job, (s.applyPublisher p eff).jobs j = some job ∧ job.status = .queued := by
  generalize s.publishers p = pc at hmove h
  cases hmove with
  | select payload created i hfind =>
    cases h with
    | selecting _ hkey =>
      obtain rfl := hc.key_unique i j _ (findJob_keyOf hfind) ⟨row, hrow, hkey.symm⟩
      exact .inl (.claiming _)
  | selectMissing payload created hnone =>
    cases h with
    | selecting _ hkey => exact absurd hkey.symm (findJob_eq_none hnone hj hrow)
  | claimWon i caller old job hold hclaim =>
    cases h
    refine .inr ⟨job, by simp [State.applyPublisher], ?_⟩
    rw [(PRJob.claimPublish_eq_some.mp hclaim).2]
  | claimLost i caller hlost =>
    cases h
    simp [hrow, PRJob.claimPublish, hpending] at hlost
  | crash => cases hok
  | _ => cases h

theorem Faultless.step (hwf : WellFormed s) (hc : CreatedOnce cfg s) (hok : faultFree a)
    (h : step cfg s a = some t) (hs : Faultless cfg s) : Faultless cfg t where
  not_unclaiming := hs.step_not_unclaiming hok h
  raises := hs.step_raises hok h
  entry_published := hs.step_entry hok h
  pending j job hjob hpending := by
    obtain ⟨row, hrow, hst, hkey⟩ | ⟨-, p, payload, hpc, hkey⟩ := hs.step_pending h hjob hpending
    · rw [← hkey]
      obtain ⟨p, hp⟩ := hs.pending j row hrow hst
      obtain hquiet | ⟨w, act, msg, eff, -, -, -, rfl⟩ | ⟨p', act, eff, rfl, hmove, rfl⟩ :=
        step_cases h
      · exact ⟨p, by rwa [hquiet.publishers]⟩
      · exact ⟨p, hp⟩
      · by_cases heq : p = p'
        · subst heq
          obtain hnext | ⟨new, hnew, hqueued⟩ :=
            hp.step hc hok hmove hrow (hwf.jobs_lt j row hrow) hst
          · exact ⟨p, by rwa [applyPublisher_self]⟩
          · cases hnew.symm.trans hjob
            cases hqueued.symm.trans hpending
        · exact ⟨p, by rwa [applyPublisher_of_ne _ _ _ heq]⟩
    · exact ⟨p, hpc ▸ .selecting payload hkey⟩

end

theorem Reachable.faultless {cfg : Settings} {s : State}
    (h : (pipeline cfg).Reachable (fun _ a => faultFree a) s) : Faultless cfg s :=
  Reachable.invariant (J := fun s => WellFormed s ∧ CreatedOnce cfg s)
    (fun _ hu => ⟨Reachable.wellFormed hu, Reachable.createdOnce hu⟩) (Faultless.initial cfg)
    (fun _ _ _ hJ hok hstep hs => hs.step hJ.1 hJ.2 hok hstep) h

theorem faultFree_crash {s : State} {a : Action} (h : faultFree a) : crashOutsideWindow s a := by
  cases a with
  | publisher p act =>
    cases act with
    | crash => cases h
    | _ => rfl
  | _ => rfl

theorem Creating.midCall {cfg : Settings} {j : JobId} {key : String} {pc : PublisherPc}
    (h : Creating cfg j key pc) : pc.midCall = true := by
  cases h <;> rfl

theorem eq_of_countP_le_one {α : Type*} {q : α → Bool} {l : List α} (h : l.countP q ≤ 1) {x y : α}
    (hx : x ∈ l) (hy : y ∈ l) (hqx : q x) (hqy : q y) : x = y := by
  have hxf : x ∈ l.filter q := List.mem_filter.mpr ⟨hx, hqx⟩
  have hyf : y ∈ l.filter q := List.mem_filter.mpr ⟨hy, hqy⟩
  rw [List.countP_eq_length_filter] at h
  match hf : l.filter q, h with
  | [], _ => simp [hf] at hxf
  | [z], _ =>
    rw [hf, List.mem_singleton] at hxf hyf
    rw [hxf, hyf]

theorem Faultless.entry_unique {cfg : Settings} {s : State}
    (h : (pipeline cfg).Reachable (fun _ a => faultFree a) s)
    (hrest : ∀ p, (s.publishers p).midCall = false) {j : JobId} {row : PRJob}
    (hrow : s.jobs j = some row) :
    ∃! e, ∃ entry, s.stream e = some entry ∧ entry.message.jobId = j := by
  have hs := Reachable.faultless h
  have hon : s.onStream j = true := by
    obtain hpending | hon := no_stranded_job (Run.mono h fun _ _ => faultFree_crash) hrest hrow
    · obtain ⟨p, hp⟩ := hs.pending j row hrow hpending
      cases hp.midCall.symm.trans (hrest p)
    · exact hon
  obtain ⟨e, entry, hentry, hj⟩ := (onStream_iff (Reachable.wellFormed h)).mp hon
  refine ⟨e, ⟨entry, hentry, hj⟩, ?_⟩
  rintro e' ⟨entry', hentry', hj'⟩
  have hcalls : s.publishCalls j ≤ 1 := by
    have hle := publishCalls_le h j
    rwa [hs.raises j] at hle
  have heq := eq_of_countP_le_one hcalls (hs.entry_published e' entry' hentry')
    (hs.entry_published e entry hentry) (by simp [Event.publishes, hj'])
    (by simp [Event.publishes, hj])
  injection heq

def PublisherPc.remaining : PublisherPc → List JobId
  | .sweeping todo _ => todo
  | .claiming j caller => j :: caller.todo
  | .refreshing _ caller | .publishing _ _ caller | .confirming _ _ _ caller => caller.todo
  | _ => []

theorem Caller.resume_remaining {caller : Caller} {i j : JobId} {published : Bool}
    (h : j ∈ caller.todo) : j ∈ (caller.resume i published).remaining := by
  cases caller with
  | ingest created => cases h
  | reconcile todo count => exact h

/-- A row that the pass of `p` found PENDING: claimed, or still ahead of it. -/
def Covered (p : PublisherId) (j : JobId) (s : State) : Prop :=
  (∃ row, s.jobs j = some row) ∧ ((∀ row, s.jobs j = some row → row.status ≠ .pending) ∨
    j ∈ (s.publishers p).remaining ∨ s.publishers p = .raised)

theorem PublisherMove.remaining {cfg : Settings} {s : State} {p : PublisherId} {pc : PublisherPc}
    {act : PublisherAct} {eff : PublisherEffect} {j : JobId} {row : PRJob}
    (h : PublisherMove cfg s.now s.jobs s.nextId s.nextEntry p pc act eff)
    (hok : faultFree (.publisher p act)) (hrow : s.jobs j = some row)
    (hpending : row.status = .pending) (hj : j ∈ pc.remaining) :
    j ∈ eff.pc.remaining ∨ eff.pc = .raised ∨
      ∃ job, (s.applyPublisher p eff).jobs j = some job ∧ job.status = .queued := by
  cases h with
  | claimWon i caller old job hold hclaim =>
    obtain rfl | hmem := List.mem_cons.mp hj
    · refine .inr (.inr ⟨job, by simp [State.applyPublisher], ?_⟩)
      rw [(PRJob.claimPublish_eq_some.mp hclaim).2]
    · exact .inl hmem
  | claimLost i caller hlost =>
    obtain rfl | hmem := List.mem_cons.mp hj
    · simp [hrow, PRJob.claimPublish, hpending] at hlost
    · exact .inl (Caller.resume_remaining hmem)
  | confirm i copy msgId caller => exact .inl (Caller.resume_remaining hj)
  | refreshMissing => exact .inr (.inl rfl)
  | publishLanded | publishFailed | crash => cases hok
  | nextJob | refresh | publishOk => exact .inl hj
  | _ => cases hj

theorem Covered.step {cfg : Settings} {s t : State} {a : Action} {p : PublisherId} {j : JobId}
    (hwf : WellFormed s) (hf : Faultless cfg s) (hok : faultFree a) (h : step cfg s a = some t)
    (hs : Covered p j s) : Covered p j t := by
  obtain ⟨⟨row, hrow⟩, hcover⟩ := hs
  obtain ⟨job, hjob, -⟩ := hwf.jobs_persist h hrow
  refine ⟨⟨job, hjob⟩, ?_⟩
  by_cases hpending : job.status = .pending
  · obtain ⟨row', hrow', hst, -⟩ | ⟨rfl, -⟩ := hf.step_pending h hjob hpending
    · cases hrow'.symm.trans hrow
      obtain hclaimed | hahead := hcover
      · exact absurd hst (hclaimed row hrow)
      obtain hquiet | ⟨w, act, msg, eff, -, -, -, rfl⟩ | ⟨p', act, eff, rfl, hmove, rfl⟩ :=
        step_cases h
      · exact .inr (by rwa [hquiet.publishers])
      · exact .inr hahead
      · by_cases hp : p = p'
        · subst hp
          rw [applyPublisher_self]
          obtain hmem | hraised := hahead
          · obtain hmem | hraised | ⟨new, hnew, hqueued⟩ :=
              hmove.remaining hok hrow hst hmem
            · exact .inr (.inl hmem)
            · exact .inr (.inr hraised)
            · cases hnew.symm.trans hjob
              cases hqueued.symm.trans hpending
          · rw [hraised] at hmove
            cases hmove
            cases hok
        · exact .inr (by rwa [applyPublisher_of_ne _ _ _ hp])
    · cases hwf.jobs_nextId.symm.trans hrow
  · left
    intro job' hjob'
    cases hjob'.symm.trans hjob
    exact hpending

/-- Creation and publication, for every interleaving; and the outcome of the calls
and of a sweep where nothing fails. -/
theorem ingest_exactly_once (cfg : Settings) :
    (∀ s, (pipeline cfg).Reachable anyStep s →
      (∀ i j key, s.KeyOf i key → s.KeyOf j key → i = j) ∧
      (∀ key, s.events.countP (Event.inserts key) ≤ 1) ∧
      (∀ p j, s.publishers p = .returned j true → ∃ key, .inserted p j key ∈ s.events) ∧
      (∀ p key j created, .called p key ∈ s.events → s.publishers p = .returned j created →
        s.KeyOf j key) ∧
      (∀ p q key i j c d, .called p key ∈ s.events → .called q key ∈ s.events →
        s.publishers p = .returned i c → s.publishers q = .returned j d → i = j) ∧
      ∀ j, s.publishCalls j ≤ s.publishRaises j + 1) ∧
    (∀ s, (pipeline cfg).Reachable (fun _ a => faultFree a) s →
      (∀ p, (s.publishers p).midCall = false) → ∀ j row, s.jobs j = some row →
        ∃! e, ∃ entry, s.stream e = some entry ∧ entry.message.jobId = j) ∧
    (∀ s t u p count, (pipeline cfg).Reachable (fun _ a => faultFree a) s →
      step cfg s (.publisher p .reconcile) = some t →
      (pipeline cfg).Run (fun _ a => faultFree a) t u → u.publishers p = .swept count →
      ∀ j row, s.jobs j = some row → row.status = .pending →
        ∃ job, u.jobs j = some job ∧ job.status ≠ .pending) := by
  refine ⟨?_, fun s h hrest j row hrow => Faultless.entry_unique h hrest hrow, ?_⟩
  · intro s h
    have hs := Reachable.createdOnce h
    have hkey : ∀ p key j created, .called p key ∈ s.events →
        s.publishers p = .returned j created → s.KeyOf j key := by
      intro p key j created hmem hpc
      have hserves := hs.called p key hmem
      rw [hpc] at hserves
      exact hserves
    refine ⟨hs.key_unique, hs.inserted_once, ?_, hkey, ?_, publishCalls_le h⟩
    · intro p j hpc
      exact hs.created p j (by simp [hpc, PublisherPc.created])
    · intro p q key i j c d hp hq hi hj
      exact hs.key_unique i j key (hkey p key i c hp hi) (hkey q key j d hq hj)
  · intro s t u p count h hstart hrun hswept j row hrow hpending
    have ht : (pipeline cfg).Reachable (fun _ a => faultFree a) t :=
      Reachable.step h (a := .publisher p .reconcile) rfl hstart
    have hcovered : Covered p j t := by
      obtain ⟨eff, hmove, rfl⟩ := step_publisher hstart
      refine ⟨?_, .inr (.inl ?_)⟩
      · obtain ⟨job, hjob, -⟩ := (Reachable.wellFormed h).jobs_persist hstart hrow
        exact ⟨job, hjob⟩
      · rw [applyPublisher_self]
        generalize s.publishers p = pc at hmove
        cases hmove
        exact mem_pendingJobs.mpr ⟨(Reachable.wellFormed h).jobs_lt j row hrow, row, hrow, hpending⟩
    have hu : Covered p j u := by
      refine Run.invariant (J := fun v => WellFormed v ∧ Faultless cfg v) ?_ ?_ hrun hcovered
      · intro v hv
        have hreach := Reachable.run ht hv
        exact ⟨Reachable.wellFormed hreach, Reachable.faultless hreach⟩
      · intro v a v' hJ hok hstep hv
        exact hv.step hJ.1 hJ.2 hok hstep
    obtain ⟨⟨job, hjob⟩, hclaimed | hahead⟩ := hu
    · exact ⟨job, hjob, hclaimed job hjob⟩
    · simp [hswept, PublisherPc.remaining] at hahead

/-- Two deliveries of one commit; the second finds the row QUEUED. -/
def duplicateRun : List Action :=
  ingestRun 0 ++ [.ingest .sample, .insert, .select].map (.publisher 1)

theorem ingest_exactly_once_duplicate :
    ∃! e, ∃ entry, ((pipeline .small).after duplicateRun (by decide)).stream e = some entry ∧
      entry.message.jobId = 0 :=
  (ingest_exactly_once .small).2.1 _ (Reachable.after (by decide) (by decide))
    (after_rest [0, 1] (by decide) (by decide)) 0 _ (Option.some_get (by decide)).symm

end AutoPR.Jobs
