import AutoPR.Jobs.Invariant

/-! The quotas, and the webhook handlers that check them before they ingest. A handler is
a sequence of statements; other handlers, workers and sweeps run between any two. -/
namespace AutoPR.Webhook
open Jobs Transition

/-- The ceilings; one that is not positive is off. -/
structure QuotaSettings where
  jobsPerRepoPerHour : Int := 0
  jobsPerInstallationPerDay : Int := 0
  jobsTotalPerDay : Int := 0

inductive Quota where
  | repoHourly
  | installationDaily
  | instanceDaily
deriving DecidableEq, Repr

def Quota.reason : Quota → String
  | .repoHourly => "quota_repo_hourly"
  | .installationDaily => "quota_installation_daily"
  | .instanceDaily => "quota_instance_daily"

def hour : Nat := 3600 * 1000000

def day : Nat := 24 * hour

def Quota.window : Quota → Nat
  | .repoHourly => hour
  | .installationDaily | .instanceDaily => day

def QuotaSettings.limit (quotas : QuotaSettings) : Quota → Int
  | .repoHourly => quotas.jobsPerRepoPerHour
  | .installationDaily => quotas.jobsPerInstallationPerDay
  | .instanceDaily => quotas.jobsTotalPerDay

/-- The jobs created since the cutoff, of one repository or one installation if given. -/
def countSince (jobs : JobTable) (nextId : JobId) (cutoff : Nat) (repo : Option String)
    (installationId : Option Int) : Nat :=
  (List.range nextId).countP fun j => (jobs j).any fun row =>
    cutoff ≤ row.createdAt && repo.all (row.repo = ·) &&
      installationId.all fun i => row.installationId = some i

/-- The count that a quota is compared with. -/
def Quota.count (jobs : JobTable) (nextId : JobId) (now : Nat) (repo : String)
    (installationId : Option Int) : Quota → Nat
  | .repoHourly => countSince jobs nextId (now - hour) (some repo) none
  | .installationDaily => countSince jobs nextId (now - day) none installationId
  | .instanceDaily => countSince jobs nextId (now - day) none none

def Quota.exhausted (quotas : QuotaSettings) (jobs : JobTable) (nextId : JobId) (now : Nat)
    (repo : String) (installationId : Option Int) (quota : Quota) : Bool :=
  quotas.limit quota ≤ quota.count jobs nextId now repo installationId

/-- The quotas that `quota_reason` looks at, in its order. -/
def QuotaSettings.checks (quotas : QuotaSettings) (installationId : Option Int) : List Quota :=
  (if 0 < quotas.jobsPerRepoPerHour then [.repoHourly] else []) ++
    (if installationId.isSome && 0 < quotas.jobsPerInstallationPerDay then [.installationDaily]
      else []) ++
    (if 0 < quotas.jobsTotalPerDay then [.instanceDaily] else [])

def quotaReason (quotas : QuotaSettings) (jobs : JobTable) (nextId : JobId) (now : Nat)
    (repo : String) (installationId : Option Int) : Option Quota :=
  (quotas.checks installationId).find? (·.exhausted quotas jobs nextId now repo installationId)

def dedupExists (jobs : JobTable) (nextId : JobId) (dedupKey : String) : Bool :=
  (findJob jobs nextId dedupKey).isSome

inductive HandlerPc where
  | idle
  /-- Parsed and allowed; `dedup_exists` has not run. -/
  | received (payload : PRPayload)
  /-- There is such a job already. -/
  | known (payload : PRPayload)
  /-- In `quota_reason`, which has not read the clock. -/
  | metering (payload : PRPayload)
  /-- The counts still to do, since the clock was read. -/
  | counting (payload : PRPayload) (now : Nat) (todo : List Quota)
  /-- In `ingest`, after a quota check or without one. -/
  | inserting (payload : PRPayload) (checked : Bool)
  /-- The INSERT is executed under this `created_at` and not committed. -/
  | stamped (payload : PRPayload) (checked : Bool) (createdAt : Nat)
  /-- Past the commit. -/
  | publishing
  | refused (quota : Quota)
  | failed
deriving DecidableEq, Repr

inductive HandlerAct where
  | deliver (payload : PRPayload)
  | dedupExists
  | readClock
  | count
  | ingest
  | execute
  | commit
  /-- A statement raises, or the process dies. -/
  | fail
deriving DecidableEq, Repr

structure State where
  jobs : Jobs.State
  handlers : PublisherId → HandlerPc

def State.initial : State where
  jobs := .initial
  handlers := fun _ => .idle

def publish (cfg : Settings) (jobs : Jobs.State) (p : PublisherId) (act : PublisherAct)
    (pc : HandlerPc) : Option (HandlerPc × Jobs.State) :=
  (Jobs.step cfg jobs (.publisher p act)).map fun jobs => (pc, jobs)

def handlerStep (cfg : Settings) (quotas : QuotaSettings) (jobs : Jobs.State) (p : PublisherId) :
    HandlerPc → HandlerAct → Option (HandlerPc × Jobs.State)
  | .idle, .deliver payload => some (.received payload, jobs)
  | .received payload, .dedupExists =>
      if dedupExists jobs.jobs jobs.nextId (payload.dedupKey cfg.sha256) then
        some (.known payload, jobs)
      else some (.metering payload, jobs)
  | .metering payload, .readClock =>
      some (.counting payload jobs.now (quotas.checks payload.installationId), jobs)
  | .counting payload now (quota :: rest), .count =>
      if quota.exhausted quotas jobs.jobs jobs.nextId now payload.repo payload.installationId then
        some (.refused quota, jobs)
      else some (.counting payload now rest, jobs)
  | .counting payload _ [], .ingest => publish cfg jobs p (.ingest payload) (.inserting payload true)
  | .known payload, .ingest => publish cfg jobs p (.ingest payload) (.inserting payload false)
  | .inserting payload checked, .execute => some (.stamped payload checked jobs.now, jobs)
  -- the row gets the time of its execution
  | .stamped _ _ createdAt, .commit =>
      (publish cfg { jobs with now := createdAt } p .insert .publishing).map fun r =>
        (r.1, { r.2 with now := jobs.now })
  | .inserting _ _, .fail | .stamped _ _ _, .fail => publish cfg jobs p .crash .failed
  | .received _, .fail | .known _, .fail | .metering _, .fail | .counting _ _ _, .fail =>
      some (.failed, jobs)
  | _, _ => none

/-- A sweep, or the rest of a call to `ingest`. -/
def HandlerPc.lets (pc : HandlerPc) : PublisherAct → Bool
  | .ingest _ | .insert => false
  | _ => pc = .idle || pc = .publishing

def State.move (s : State) (p : PublisherId) (pc : HandlerPc) (jobs : Jobs.State) : State where
  jobs := jobs
  handlers := Function.update s.handlers p pc

inductive Action where
  | handler (p : PublisherId) (act : HandlerAct)
  /-- The clock, a worker, or a publisher call that no statement of a handler makes. -/
  | system (a : Jobs.Action)
deriving DecidableEq, Repr

def step (cfg : Settings) (quotas : QuotaSettings) (s : State) : Action → Option State
  | .handler p act => do
      let (pc, jobs) ← handlerStep cfg quotas s.jobs p (s.handlers p) act
      pure (s.move p pc jobs)
  | .system (.publisher p act) =>
      if (s.handlers p).lets act then
        (Jobs.step cfg s.jobs (.publisher p act)).map fun jobs => { s with jobs := jobs }
      else none
  | .system a => (Jobs.step cfg s.jobs a).map fun jobs => { s with jobs := jobs }

def webhooks (cfg : Settings) (quotas : QuotaSettings) : System State Action where
  init := .initial
  step := step cfg quotas

/-- Between the quota check and the commit: the first of the counts has run. -/
def HandlerPc.inFlight (quotas : QuotaSettings) : HandlerPc → Bool
  | .counting payload _ todo => todo ≠ quotas.checks payload.installationId
  | .inserting payload checked | .stamped payload checked _ =>
      checked && quotas.checks payload.installationId ≠ []
  | _ => false

/-- The handlers between their quota check and the commit of their INSERT. -/
def State.inFlight (quotas : QuotaSettings) (s : State) : Set PublisherId :=
  {p | (s.handlers p).inFlight quotas = true}

inductive HandlerMove (cfg : Settings) (quotas : QuotaSettings) (jobs : Jobs.State)
    (p : PublisherId) : HandlerPc → HandlerAct → HandlerPc → Jobs.State → Prop where
  | deliver (payload) : HandlerMove cfg quotas jobs p .idle (.deliver payload) (.received payload) jobs
  | duplicate (payload)
      (h : dedupExists jobs.jobs jobs.nextId (payload.dedupKey cfg.sha256) = true) :
      HandlerMove cfg quotas jobs p (.received payload) .dedupExists (.known payload) jobs
  | fresh (payload)
      (h : dedupExists jobs.jobs jobs.nextId (payload.dedupKey cfg.sha256) = false) :
      HandlerMove cfg quotas jobs p (.received payload) .dedupExists (.metering payload) jobs
  | readClock (payload) :
      HandlerMove cfg quotas jobs p (.metering payload) .readClock
        (.counting payload jobs.now (quotas.checks payload.installationId)) jobs
  | refuse (payload now quota rest)
      (h : quota.exhausted quotas jobs.jobs jobs.nextId now payload.repo payload.installationId =
        true) :
      HandlerMove cfg quotas jobs p (.counting payload now (quota :: rest)) .count (.refused quota)
        jobs
  | pass (payload now quota rest)
      (h : quota.exhausted quotas jobs.jobs jobs.nextId now payload.repo payload.installationId =
        false) :
      HandlerMove cfg quotas jobs p (.counting payload now (quota :: rest)) .count
        (.counting payload now rest) jobs
  | ingest (payload now jobs') (h : Jobs.step cfg jobs (.publisher p (.ingest payload)) = some jobs') :
      HandlerMove cfg quotas jobs p (.counting payload now []) .ingest (.inserting payload true) jobs'
  | ingestKnown (payload jobs')
      (h : Jobs.step cfg jobs (.publisher p (.ingest payload)) = some jobs') :
      HandlerMove cfg quotas jobs p (.known payload) .ingest (.inserting payload false) jobs'
  | execute (payload checked) :
      HandlerMove cfg quotas jobs p (.inserting payload checked) .execute
        (.stamped payload checked jobs.now) jobs
  | commit (payload checked createdAt jobs')
      (h : Jobs.step cfg { jobs with now := createdAt } (.publisher p .insert) = some jobs') :
      HandlerMove cfg quotas jobs p (.stamped payload checked createdAt) .commit .publishing
        { jobs' with now := jobs.now }
  | crash (pc jobs') (h : Jobs.step cfg jobs (.publisher p .crash) = some jobs') :
      HandlerMove cfg quotas jobs p pc .fail .failed jobs'
  | fail (pc) : HandlerMove cfg quotas jobs p pc .fail .failed jobs

section
variable {cfg : Settings} {quotas : QuotaSettings} {p : PublisherId}

theorem publish_eq_some {jobs : Jobs.State} {act : PublisherAct} {pc : HandlerPc}
    {r : HandlerPc × Jobs.State} (h : publish cfg jobs p act pc = some r) :
    ∃ jobs', Jobs.step cfg jobs (.publisher p act) = some jobs' ∧ r = (pc, jobs') := by
  obtain ⟨jobs', hstep, rfl⟩ := Option.map_eq_some_iff.mp h
  exact ⟨jobs', hstep, rfl⟩

theorem handlerStep_move {jobs jobs' : Jobs.State} {pc pc' : HandlerPc} {act : HandlerAct}
    (h : handlerStep cfg quotas jobs p pc act = some (pc', jobs')) :
    HandlerMove cfg quotas jobs p pc act pc' jobs' := by
  cases pc <;> cases act <;>
    simp only [handlerStep, reduceCtorEq, Option.some.injEq, Prod.mk.injEq] at h
  case idle.deliver payload =>
    obtain ⟨rfl, rfl⟩ := h
    exact .deliver payload
  case received.dedupExists payload =>
    split at h
    · rename_i hexists
      cases h
      exact .duplicate payload hexists
    · rename_i hexists
      cases h
      exact .fresh payload (Bool.not_eq_true _ ▸ hexists)
  case metering.readClock payload =>
    obtain ⟨rfl, rfl⟩ := h
    exact .readClock payload
  case counting.count payload now todo =>
    cases todo with
    | nil => cases h
    | cons quota rest =>
      simp only at h
      split at h
      · rename_i hfull
        cases h
        exact .refuse payload now quota rest hfull
      · rename_i hfull
        cases h
        exact .pass payload now quota rest (Bool.not_eq_true _ ▸ hfull)
  case counting.ingest payload now todo =>
    cases todo with
    | cons quota rest => cases h
    | nil =>
      obtain ⟨jobs', hstep, heq⟩ := publish_eq_some h
      cases heq
      exact .ingest payload now jobs' hstep
  case known.ingest payload =>
    obtain ⟨jobs', hstep, heq⟩ := publish_eq_some h
    cases heq
    exact .ingestKnown payload jobs' hstep
  case inserting.execute payload checked =>
    obtain ⟨rfl, rfl⟩ := h
    exact .execute payload checked
  case stamped.commit payload checked createdAt =>
    obtain ⟨r, hr, heq⟩ := Option.map_eq_some_iff.mp h
    obtain ⟨jobs', hstep, rfl⟩ := publish_eq_some hr
    cases heq
    exact .commit payload checked createdAt jobs' hstep
  case inserting.fail | stamped.fail =>
    obtain ⟨jobs', hstep, heq⟩ := publish_eq_some h
    cases heq
    exact .crash _ jobs' hstep
  case received.fail | known.fail | metering.fail | counting.fail =>
    obtain ⟨rfl, rfl⟩ := h
    exact .fail _

theorem step_cases {s t : State} {a : Action} (h : step cfg quotas s a = some t) :
    (∃ p act pc jobs, a = .handler p act ∧
      HandlerMove cfg quotas s.jobs p (s.handlers p) act pc jobs ∧
      t = s.move p pc jobs) ∨
    ∃ b jobs, a = .system b ∧ Jobs.step cfg s.jobs b = some jobs ∧
      (∀ p act, b = .publisher p act → (s.handlers p).lets act = true) ∧
      t = { s with jobs := jobs } := by
  cases a with
  | handler p act =>
    obtain ⟨⟨pc, jobs⟩, hstep, heq⟩ := Option.bind_eq_some_iff.mp h
    cases heq
    exact .inl ⟨p, act, pc, jobs, rfl, handlerStep_move hstep, rfl⟩
  | system b =>
    right
    cases b with
    | publisher p act =>
      simp only [step] at h
      split at h
      · rename_i hlets
        obtain ⟨jobs, hstep, rfl⟩ := Option.map_eq_some_iff.mp h
        refine ⟨_, jobs, rfl, hstep, ?_, rfl⟩
        rintro _ _ heq
        cases heq
        exact hlets
      · cases h
    | tick | consume | reclaim | worker =>
      simp only [step, Option.map_eq_some_iff] at h
      obtain ⟨jobs, hstep, rfl⟩ := h
      refine ⟨_, jobs, rfl, hstep, ?_, rfl⟩
      rintro _ _ heq
      cases heq

end

end AutoPR.Webhook
