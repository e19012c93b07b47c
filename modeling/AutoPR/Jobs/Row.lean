import AutoPR.Library.UnitOfWork

/-! The `pr_jobs` row and the statements the program runs on it. Guarded updates
are compare-and-sets: `none` means that the WHERE clause matched no row. Attribute
writes go through the session's loaded copy and are not guarded by anything. Times
are microseconds. -/
namespace AutoPR.Jobs
open UnitOfWork

abbrev JobId := Nat
abbrev EntryId := Nat

/-- The settings the job pipeline reads, with the digest that builds dedup keys. -/
structure Settings where
  maxAttempts : Nat := 5
  reclaimIdleMs : Nat := 900000
  sha256 : String → String

def Settings.reclaimIdle (cfg : Settings) : Nat := cfg.reclaimIdleMs * 1000

/-- The lease cutoff. Truncation at zero agrees with an instant before the epoch,
which no timestamp precedes either. -/
def Settings.leaseCutoff (cfg : Settings) (now : Nat) : Nat := now - cfg.reclaimIdle

inductive JobStatus where
  | pending
  | queued
  | processing
  | done
  | dead
deriving DecidableEq, Repr

/-- Statuses that the worker short-circuits on. -/
def JobStatus.terminal : JobStatus → Bool
  | .done | .dead => true
  | .pending | .queued | .processing => false

structure PRPayload where
  repo : String
  prNumber : Int
  commitSha : String
  author : String
  event : String := "pull_request"
  installationId : Option Int := none
  ciLogs : String := ""
deriving DecidableEq, Repr

def PRPayload.dedupKey (sha256 : String → String) (payload : PRPayload) : String :=
  sha256 (payload.event ++ "|" ++ payload.repo ++ "|" ++ toString payload.prNumber ++ "|" ++
    payload.commitSha)

structure PRJob where
  dedupKey : String
  repo : String
  prNumber : Int
  commitSha : String
  author : String
  event : String
  installationId : Option Int
  status : JobStatus
  attempts : Nat
  streamMsgId : Option EntryId
  lastError : Option String
  eventContext : Option String
  createdAt : Nat
  updatedAt : Nat
deriving DecidableEq, Repr

/-- The values of the INSERT in `ingest`; both timestamps are column defaults. -/
def PRPayload.newJob (cfg : Settings) (now : Nat) (payload : PRPayload) : PRJob where
  dedupKey := payload.dedupKey cfg.sha256
  repo := payload.repo
  prNumber := payload.prNumber
  commitSha := payload.commitSha
  author := payload.author
  event := payload.event
  installationId := payload.installationId
  status := .pending
  attempts := 0
  streamMsgId := none
  lastError := none
  eventContext := if payload.ciLogs = "" then none else some payload.ciLogs
  createdAt := now
  updatedAt := now

/-- The commit of an object that was loaded as `copy` and reads `new` now. The
three columns are the ones the program assigns; `updated_at` moves with any of
them and an unchanged object writes nothing. -/
def PRJob.flush (row : PRJob) (now : Nat) (copy new : PRJob) : PRJob :=
  if new.status = copy.status ∧ new.lastError = copy.lastError ∧
      new.streamMsgId = copy.streamMsgId then row
  else { row with
    status := column copy.status new.status row.status
    lastError := column copy.lastError new.lastError row.lastError
    streamMsgId := column copy.streamMsgId new.streamMsgId row.streamMsgId
    updatedAt := now }

def PRJob.leased (row : PRJob) (cfg : Settings) (now : Nat) : Bool :=
  row.status = .processing && !decide (row.updatedAt < cfg.leaseCutoff now)

/-- PENDING -> QUEUED in `claim_and_publish`; `updated_at` follows its onupdate. -/
def PRJob.claimPublish (row : PRJob) (now : Nat) : Option PRJob :=
  if row.status = .pending then some { row with status := .queued, updatedAt := now } else none

def PRJob.claimable (row : PRJob) (cfg : Settings) (now : Nat) : Bool :=
  (row.status = .queued || row.status = .pending) ||
    (row.status = .processing && row.updatedAt < cfg.leaseCutoff now)

/-- The claim in `process_job`, stamped with the time read before the statement. -/
def PRJob.claim (row : PRJob) (cfg : Settings) (stamp : Nat) : Option PRJob :=
  if row.claimable cfg stamp then
    some { row with status := .processing, attempts := row.attempts + 1, updatedAt := stamp }
  else none

def PRJob.release (row : PRJob) (now stamp : Nat) (exc : String) : Option PRJob :=
  if row.status = .processing ∧ row.updatedAt = stamp then
    some { row with status := .queued, lastError := some exc, updatedAt := now }
  else none

def PRJob.escalate (row : PRJob) (now : Nat) (copy : PRJob) : PRJob :=
  row.flush now copy { copy with
    status := .dead
    lastError := some (copy.lastError.getD "" ++ " | exceeded max attempts") }

def PRJob.finish (row : PRJob) (now : Nat) (copy : PRJob) : PRJob :=
  row.flush now copy { copy with status := .done }

/-- The outer error branch of `_handle_message`. -/
def PRJob.recordError (row : PRJob) (now : Nat) (copy : PRJob) (exc : String) : PRJob :=
  row.flush now copy { copy with lastError := some exc, status := .queued }

def PRJob.confirm (row : PRJob) (now : Nat) (copy : PRJob) (msgId : EntryId) : PRJob :=
  row.flush now copy { copy with streamMsgId := some msgId, lastError := none }

def PRJob.unclaim (row : PRJob) (now : Nat) (copy : PRJob) (exc : String) : PRJob :=
  row.flush now copy { copy with
    status := .pending
    lastError := some ("publish failed: " ++ exc) }

section
variable (row copy new : PRJob) (now : Nat)

@[simp] theorem PRJob.flush_attempts : (row.flush now copy new).attempts = row.attempts := by
  unfold PRJob.flush
  split <;> rfl

theorem PRJob.flush_frame : row.flush now copy new = { row with
    status := (row.flush now copy new).status
    attempts := (row.flush now copy new).attempts
    streamMsgId := (row.flush now copy new).streamMsgId
    lastError := (row.flush now copy new).lastError
    updatedAt := (row.flush now copy new).updatedAt } := by
  unfold PRJob.flush
  split <;> rfl

@[simp] theorem PRJob.flush_status :
    (row.flush now copy new).status = column copy.status new.status row.status := by
  unfold PRJob.flush
  split
  · rename_i h
    simp [h.1]
  · rfl

theorem PRJob.flush_clean (hs : new.status = copy.status) (he : new.lastError = copy.lastError)
    (hm : new.streamMsgId = copy.streamMsgId) : row.flush now copy new = row := by
  simp [PRJob.flush, hs, he, hm]

theorem PRJob.flush_updatedAt :
    (row.flush now copy new).updatedAt = row.updatedAt ∨
      (row.flush now copy new).updatedAt = now := by
  unfold PRJob.flush
  split
  · exact .inl rfl
  · exact .inr rfl

@[simp] theorem PRJob.escalate_status :
    (row.escalate now copy).status = column copy.status .dead row.status :=
  PRJob.flush_status ..

@[simp] theorem PRJob.finish_status :
    (row.finish now copy).status = column copy.status .done row.status :=
  PRJob.flush_status ..

@[simp] theorem PRJob.recordError_status (exc : String) :
    (row.recordError now copy exc).status = column copy.status .queued row.status :=
  PRJob.flush_status ..

@[simp] theorem PRJob.confirm_status (msgId : EntryId) :
    (row.confirm now copy msgId).status = row.status := by
  simp [PRJob.confirm]

@[simp] theorem PRJob.unclaim_status (exc : String) :
    (row.unclaim now copy exc).status = column copy.status .pending row.status :=
  PRJob.flush_status ..

end

theorem PRJob.claimPublish_eq_some {row job : PRJob} {now : Nat} :
    row.claimPublish now = some job ↔
      row.status = .pending ∧ job = { row with status := .queued, updatedAt := now } := by
  unfold PRJob.claimPublish
  split
  · rename_i h
    rw [Option.some.injEq, eq_comm]
    exact ⟨fun hj => ⟨h, hj⟩, fun hj => hj.2⟩
  · rename_i h
    simp [h]

theorem PRJob.claim_eq_some {row job : PRJob} {cfg : Settings} {stamp : Nat} :
    row.claim cfg stamp = some job ↔ row.claimable cfg stamp = true ∧
      job = { row with status := .processing, attempts := row.attempts + 1, updatedAt := stamp } := by
  unfold PRJob.claim
  split
  · rename_i h
    rw [Option.some.injEq, eq_comm]
    exact ⟨fun hj => ⟨h, hj⟩, fun hj => hj.2⟩
  · rename_i h
    simp [h]

theorem PRJob.release_eq_some {row job : PRJob} {now stamp : Nat} {exc : String} :
    row.release now stamp exc = some job ↔ (row.status = .processing ∧ row.updatedAt = stamp) ∧
      job = { row with status := .queued, lastError := some exc, updatedAt := now } := by
  unfold PRJob.release
  split
  · rename_i h
    rw [Option.some.injEq, eq_comm]
    exact ⟨fun hj => ⟨h, hj⟩, fun hj => hj.2⟩
  · rename_i h
    simp [h]

theorem PRJob.leased_iff {row : PRJob} {cfg : Settings} {now : Nat} :
    row.leased cfg now = true ↔
      row.status = .processing ∧ cfg.leaseCutoff now ≤ row.updatedAt := by
  simp [PRJob.leased]

theorem PRJob.not_claimable {row : PRJob} {cfg : Settings} {stamp : Nat} :
    row.claimable cfg stamp = false ↔
      row.status.terminal = true ∨ row.leased cfg stamp = true := by
  cases hs : row.status <;> simp [PRJob.claimable, PRJob.leased, JobStatus.terminal, hs]

end AutoPR.Jobs
