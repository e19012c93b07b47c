import AutoPR.Jobs.Invariant

/-! One call of `ingest` on tables that nobody else uses meanwhile. Where the key is the
payload's own, its statements are a run of the pipeline. -/
namespace AutoPR.Webhook
open UnitOfWork Jobs Transition

inductive IngestResult where
  | returned (job : JobId) (created : Bool)
  | redisError
  /-- The SELECT by the key found no row. -/
  | noResult
deriving DecidableEq

def writeJob (s : Jobs.State) (j : JobId) (row : PRJob) : Jobs.State :=
  { s with jobs := s.jobs.write j (some row) }

def xadd (s : Jobs.State) (j : JobId) (copy : PRJob) (correlationId : String) : Jobs.State :=
  { s with
    stream := s.stream.write s.nextEntry
      (some { message := ⟨s.nextEntry, j, copy.repo, copy.prNumber, copy.commitSha, correlationId⟩ })
    nextEntry := s.nextEntry + 1 }

def claimAndPublish (s : Jobs.State) (j : JobId) (correlationId : String) (outcome : XaddOutcome) :
    Jobs.State × Option Bool :=
  match (s.jobs j).bind (·.claimPublish s.now) with
  | none => (s, some false)
  | some job =>
      let claimed := writeJob s j job
      let sent := if outcome.landed then xadd claimed j job correlationId else claimed
      match outcome with
      | .ok => (writeJob sent j (job.confirm s.now job s.nextEntry), some true)
      | .raised _ exc => (writeJob sent j (job.unclaim s.now job exc), none)

def insertJob (cfg : Settings) (s : Jobs.State) (key : String) (payload : PRPayload) : Jobs.State :=
  { writeJob s s.nextId { payload.newJob cfg s.now with dedupKey := key } with
    nextId := s.nextId + 1 }

def publishInserted (s : Jobs.State) (key : String) (created : Bool) (correlationId : String)
    (outcome : XaddOutcome) : Jobs.State × IngestResult :=
  match findJob s.jobs s.nextId key with
  | none => (s, .noResult)
  | some j =>
      if created || (s.jobs j).any (·.status = .pending) then
        let (s, published) := claimAndPublish s j correlationId outcome
        (s, if published.isSome then .returned j created else .redisError)
      else (s, .returned j false)

def ingest (cfg : Settings) (s : Jobs.State) (key : String) (payload : PRPayload)
    (correlationId : String) (outcome : XaddOutcome) : Jobs.State × IngestResult :=
  match findJob s.jobs s.nextId key with
  | some _ => publishInserted s key false correlationId outcome
  | none => publishInserted (insertJob cfg s key payload) key true correlationId outcome

/-- The same tables and the same stream but for the row and the message of one job. -/
structure OnlyJob (key : String) (s t : Jobs.State) : Prop where
  results : t.results = s.results
  job : t.jobs = s.jobs ∨ ∃ j row, t.jobs = s.jobs.write j (some row) ∧ row.dedupKey = key ∧
    (j = s.nextId ∧ findJob s.jobs s.nextId key = none ∨
      ∃ old, s.jobs j = some old ∧ old.dedupKey = key ∧ old.status = .pending)
  stream : t.stream = s.stream ∨ ∃ entry row, t.stream = s.stream.write s.nextEntry (some entry) ∧
    t.jobs entry.message.jobId = some row ∧ row.dedupKey = key

theorem OnlyJob.refl (key : String) (s : Jobs.State) : OnlyJob key s s := ⟨rfl, .inl rfl, .inl rfl⟩

section
variable {cfg : Settings} {s : Jobs.State} {key correlationId : String} {payload : PRPayload}
  {outcome : XaddOutcome} {j : JobId}

theorem write_write {ι ρ : Type*} [DecidableEq ι] (table : Table ι ρ) (i : ι) (a b : ρ) :
    (table.write i (some a)).write i (some b) = table.write i (some b) :=
  Function.update_idem ..

theorem claimAndPublish_eq : (claimAndPublish s j correlationId outcome).1 = s ∨
    ∃ old row, s.jobs j = some old ∧ old.status = .pending ∧ row.dedupKey = old.dedupKey ∧
      (claimAndPublish s j correlationId outcome).1.jobs = s.jobs.write j (some row) ∧
      (claimAndPublish s j correlationId outcome).1.results = s.results ∧
      ((claimAndPublish s j correlationId outcome).1.stream = s.stream ∨ ∃ entry,
        (claimAndPublish s j correlationId outcome).1.stream =
          s.stream.write s.nextEntry (some entry) ∧ entry.message.jobId = j) := by
  unfold claimAndPublish
  cases hclaim : (s.jobs j).bind (·.claimPublish s.now) with
  | none => exact .inl rfl
  | some job =>
    obtain ⟨old, hold, hjob⟩ := Option.bind_eq_some_iff.mp hclaim
    obtain ⟨hpending, rfl⟩ := PRJob.claimPublish_eq_some.mp hjob
    right
    cases outcome with
    | ok =>
      refine ⟨old, _, hold, hpending, ?_, write_write .., rfl, .inr ⟨_, rfl, rfl⟩⟩
      rw [PRJob.confirm, PRJob.flush_frame]
    | raised landed exc =>
      refine ⟨old, { old with status := .queued, updatedAt := s.now }.unclaim s.now
        { old with status := .queued, updatedAt := s.now } exc, hold, hpending, ?_, ?_, ?_, ?_⟩
      · rw [PRJob.unclaim, PRJob.flush_frame]
      · cases landed <;> exact write_write ..
      · cases landed <;> rfl
      · cases landed with
        | true => exact .inr ⟨_, rfl, rfl⟩
        | false => exact .inl rfl

theorem claimAndPublish_only {row : PRJob} (hrow : s.jobs j = some row) (hkey : row.dedupKey = key) :
    OnlyJob key s (claimAndPublish s j correlationId outcome).1 := by
  obtain hsame | ⟨old, new, hold, hpending, hnew, hjobs, hresults, hstream⟩ :=
    @claimAndPublish_eq s correlationId outcome j
  · rw [hsame]
    exact .refl key s
  · cases hold.symm.trans hrow
    refine ⟨hresults, .inr ⟨j, new, hjobs, hnew.trans hkey, .inr ⟨row, hrow, hkey, hpending⟩⟩, ?_⟩
    refine hstream.imp id ?_
    rintro ⟨entry, hentry, rfl⟩
    exact ⟨entry, new, hentry, by rw [hjobs]; exact Table.write_self .., hnew.trans hkey⟩

theorem findJob_insertJob (cfg : Settings) (payload : PRPayload)
    (hnone : findJob s.jobs s.nextId key = none) :
    findJob (insertJob cfg s key payload).jobs (insertJob cfg s key payload).nextId key =
      some s.nextId := by
  have hold : ((List.range s.nextId).find? fun j =>
      ((insertJob cfg s key payload).jobs j).any (·.dedupKey = key)) = none := by
    rw [List.find?_eq_none]
    intro j hj
    have hne : j ≠ s.nextId := Nat.ne_of_lt (List.mem_range.mp hj)
    have hjob : (insertJob cfg s key payload).jobs j = s.jobs j := by
      simp [insertJob, writeJob, Table.write_of_ne, hne]
    rw [hjob]
    exact List.find?_eq_none.mp hnone j hj
  change (List.range (s.nextId + 1)).find? _ = _
  rw [List.range_succ, List.find?_append, hold]
  simp [insertJob, writeJob]

theorem publishInserted_only {created : Bool} :
    OnlyJob key s (publishInserted s key created correlationId outcome).1 := by
  unfold publishInserted
  split
  · exact .refl key s
  · rename_i j hfind
    split
    · obtain ⟨row, hrow, hkey⟩ := findJob_eq_some hfind
      exact claimAndPublish_only hrow hkey
    · exact .refl key s

theorem insertJob_only (hnone : findJob s.jobs s.nextId key = none) :
    OnlyJob key s (publishInserted (insertJob cfg s key payload) key true correlationId outcome).1 := by
  have hfind := findJob_insertJob cfg payload hnone
  unfold publishInserted
  simp only [hfind, Bool.true_or, if_true]
  have hself : (insertJob cfg s key payload).jobs s.nextId =
      some { payload.newJob cfg s.now with dedupKey := key } := Table.write_self ..
  obtain hsame | ⟨old, new, hold, hpending, hnew, hjobs, hresults, hstream⟩ :=
    @claimAndPublish_eq (insertJob cfg s key payload) correlationId outcome s.nextId
  · rw [hsame]
    exact ⟨rfl, .inr ⟨s.nextId, _, rfl, rfl, .inl ⟨rfl, hnone⟩⟩, .inl rfl⟩
  · cases hold.symm.trans hself
    have hwrite : (claimAndPublish (insertJob cfg s key payload) s.nextId correlationId outcome).1.jobs =
        s.jobs.write s.nextId (some new) := hjobs.trans (write_write ..)
    refine ⟨hresults, .inr ⟨s.nextId, new, hwrite, hnew, .inl ⟨rfl, hnone⟩⟩, ?_⟩
    refine hstream.imp id ?_
    rintro ⟨entry, hentry, hjob⟩
    refine ⟨entry, new, hentry, ?_, hnew⟩
    rw [hjob, hwrite]
    exact Table.write_self ..

theorem ingest_only : OnlyJob key s (ingest cfg s key payload correlationId outcome).1 := by
  unfold ingest
  split
  · exact publishInserted_only
  · rename_i hnone
    exact insertJob_only hnone

end

def tables (s : Jobs.State) : Jobs.State := { s with publishers := fun _ => .idle, events := [] }

section
variable {cfg : Settings} {s : Jobs.State} {p : PublisherId} {payload : PRPayload} {j : JobId}
  (correlationId : String) (outcome : XaddOutcome)

theorem run_of_exec {acts : List Action} {r : Jobs.State}
    (h : ((pipeline cfg).exec acts s).map tables = some (tables r)) :
    ∃ t, (pipeline cfg).Run anyStep s t ∧ tables t = tables r := by
  obtain ⟨t, ht, heq⟩ := Option.map_eq_some_iff.mp h
  exact ⟨t, Run.of_exec ht (System.Admits.any acts s), heq⟩

theorem claimAndPublish_run {created : Bool}
    (hpc : s.publishers p = .claiming j (.ingest created)) :
    ∃ t, (pipeline cfg).Run anyStep s t ∧
      tables t = tables (claimAndPublish s j correlationId outcome).1 := by
  unfold claimAndPublish
  cases hclaim : (s.jobs j).bind (·.claimPublish s.now) with
  | none =>
    apply @run_of_exec cfg s [.publisher p .claim]
    simp [System.exec, pipeline, step, publisherStep, hpc, hclaim, tables, State.applyPublisher]
  | some job =>
    cases outcome with
    | ok =>
      apply @run_of_exec cfg s
        ([.claim, .refresh, .publish correlationId .ok, .confirm].map (.publisher p))
      simp [System.exec, pipeline, step, publisherStep, State.applyPublisher, hpc, hclaim, tables,
        writeJob, xadd, XaddOutcome.landed]
    | raised landed exc =>
      apply @run_of_exec cfg s
        ([.claim, .refresh, .publish correlationId (.raised landed exc), .unclaim].map (.publisher p))
      cases landed <;>
      simp [System.exec, pipeline, step, publisherStep, State.applyPublisher, hpc, hclaim, tables,
        writeJob, xadd, XaddOutcome.landed]

theorem claimAndPublish_congr {t : Jobs.State} (h : tables t = tables s) :
    tables (claimAndPublish t j correlationId outcome).1 =
      tables (claimAndPublish s j correlationId outcome).1 := by
  have hlone : ∀ u : Jobs.State, tables (claimAndPublish (tables u) j correlationId outcome).1 =
      tables (claimAndPublish u j correlationId outcome).1 := by
    intro u
    have hjobs : (tables u).jobs = u.jobs := rfl
    have hnow : (tables u).now = u.now := rfl
    unfold claimAndPublish
    rw [hjobs, hnow]
    cases (u.jobs j).bind (·.claimPublish u.now) with
    | none => rfl
    | some job =>
      cases outcome with
      | ok => rfl
      | raised landed exc => cases landed <;> rfl
  rw [← hlone, h, hlone]

theorem publishInserted_run {created : Bool} (hpc : s.publishers p = .selecting payload created) :
    ∃ t, (pipeline cfg).Run anyStep s t ∧ tables t =
      tables (publishInserted s (payload.dedupKey cfg.sha256) created correlationId outcome).1 := by
  unfold publishInserted
  cases hfind : findJob s.jobs s.nextId (payload.dedupKey cfg.sha256) with
  | none =>
    apply @run_of_exec cfg s [.publisher p .select]
    simp [System.exec, pipeline, step, publisherStep, hpc, hfind, tables, State.applyPublisher]
  | some j =>
    by_cases hpub : (created || (s.jobs j).any (·.status = .pending)) = true
    · have hselect : ((pipeline cfg).exec [.publisher p .select] s) =
          some (s.applyPublisher p { pc := .claiming j (.ingest created) }) := by
        simp [System.exec, pipeline, step, publisherStep, hpc, hfind, hpub]
      obtain ⟨t, hrun, htables⟩ := @claimAndPublish_run cfg
        (s.applyPublisher p { pc := .claiming j (.ingest created) }) p j correlationId outcome created
        (applyPublisher_self ..)
      refine ⟨t, (Run.of_exec hselect (System.Admits.any _ _)).trans hrun, ?_⟩
      simp only [hpub, if_true]
      exact htables.trans (claimAndPublish_congr _ _ rfl)
    · have hskip : (created || (s.jobs j).any (·.status = .pending)) = false := by simpa using hpub
      apply @run_of_exec cfg s [.publisher p .select]
      simp [System.exec, pipeline, step, publisherStep, hpc, hfind, hskip, tables,
        State.applyPublisher]

theorem publishInserted_congr {t : Jobs.State} (key : String) (created : Bool)
    (h : tables t = tables s) :
    tables (publishInserted t key created correlationId outcome).1 =
      tables (publishInserted s key created correlationId outcome).1 := by
  have hjobs : (tables t).jobs = (tables s).jobs := congrArg State.jobs h
  have hnextId : (tables t).nextId = (tables s).nextId := congrArg State.nextId h
  change t.jobs = s.jobs at hjobs
  change t.nextId = s.nextId at hnextId
  unfold publishInserted
  rw [hjobs, hnextId]
  split
  · exact h
  · split
    · exact claimAndPublish_congr _ _ h
    · exact h

theorem ingest_run (hidle : s.publishers p = .idle) :
    ∃ t, (pipeline cfg).Run anyStep s t ∧ tables t =
      tables (ingest cfg s (payload.dedupKey cfg.sha256) payload correlationId outcome).1 := by
  unfold ingest
  cases hfind : findJob s.jobs s.nextId (payload.dedupKey cfg.sha256) with
  | some j =>
    obtain ⟨u, hu, hpc, htables⟩ : ∃ u, (pipeline cfg).exec
        ([.ingest payload, .insert].map (.publisher p)) s = some u ∧
        u.publishers p = .selecting payload false ∧ tables u = tables s := by
      simp [System.exec, pipeline, step, publisherStep, hidle, hfind, State.applyPublisher, tables]
    obtain ⟨t, hrun, ht⟩ := publishInserted_run correlationId outcome hpc
    exact ⟨t, (Run.of_exec hu (System.Admits.any _ _)).trans hrun,
      ht.trans (publishInserted_congr _ _ _ _ htables)⟩
  | none =>
    obtain ⟨u, hu, hpc, htables⟩ : ∃ u, (pipeline cfg).exec
        ([.ingest payload, .insert].map (.publisher p)) s = some u ∧
        u.publishers p = .selecting payload true ∧
        tables u = tables (insertJob cfg s (payload.dedupKey cfg.sha256) payload) := by
      simp [System.exec, pipeline, step, publisherStep, hidle, hfind, State.applyPublisher, tables,
        insertJob, writeJob, PRPayload.newJob]
    obtain ⟨t, hrun, ht⟩ := publishInserted_run correlationId outcome hpc
    exact ⟨t, (Run.of_exec hu (System.Admits.any _ _)).trans hrun,
      ht.trans (publishInserted_congr _ _ _ _ htables)⟩

end

end AutoPR.Webhook
