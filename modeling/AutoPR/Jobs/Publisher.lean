import AutoPR.Jobs.Worker

/-! The calls that publish a job: `ingest` and `reconcile_pending`, both through
`claim_and_publish`. Each call has a session of its own; the constructors of
`PublisherPc` are the points between its statements. -/
namespace AutoPR.Jobs
open UnitOfWork

abbrev JobTable := Table JobId PRJob

def findJob (jobs : JobTable) (nextId : JobId) (dedupKey : String) : Option JobId :=
  (List.range nextId).find? fun j => (jobs j).any (·.dedupKey = dedupKey)

def pendingJobs (jobs : JobTable) (nextId : JobId) : List JobId :=
  (List.range nextId).filter fun j => (jobs j).any (·.status = .pending)

inductive Caller where
  | ingest (created : Bool)
  | reconcile (todo : List JobId) (count : Nat)
deriving DecidableEq, Repr

inductive PublisherPc where
  | idle
  | inserting (payload : PRPayload)
  | selecting (payload : PRPayload) (created : Bool)
  /-- The loop of `reconcile_pending`, over the rows still to do. -/
  | sweeping (todo : List JobId) (count : Nat)
  | claiming (job : JobId) (caller : Caller)
  | refreshing (job : JobId) (caller : Caller)
  | publishing (job : JobId) (copy : PRJob) (caller : Caller)
  | confirming (job : JobId) (copy : PRJob) (msgId : EntryId) (caller : Caller)
  | unclaiming (job : JobId) (copy : PRJob) (exc : String)
  | returned (job : JobId) (created : Bool)
  | swept (count : Nat)
  | raised
  | crashed
deriving DecidableEq, Repr

/-- How `queue.publish` ends; a raised RedisError may hide an entry that was added. -/
inductive XaddOutcome where
  | ok
  | raised (landed : Bool) (exc : String)
deriving DecidableEq, Repr

def XaddOutcome.landed : XaddOutcome → Bool
  | .ok => true
  | .raised landed _ => landed

inductive PublisherAct where
  | ingest (payload : PRPayload)
  | reconcile
  | insert
  | select
  | next
  | claim
  | refresh
  | publish (correlationId : String) (outcome : XaddOutcome)
  | confirm
  | unclaim
  /-- The call ends where it stands: the process dies, or anything but a
  RedisError escapes. -/
  | crash
deriving DecidableEq, Repr

structure PublisherEffect where
  pc : PublisherPc
  write : Option (JobId × PRJob) := none
  insert : Option PRJob := none
  xadd : Option StreamMessage := none
  events : List Event := []
deriving DecidableEq, Repr

/-- `claim_and_publish` returning to its caller. -/
def Caller.resume (job : JobId) (published : Bool) : Caller → PublisherPc
  | .ingest created => .returned job created
  | .reconcile todo count => .sweeping todo (if published then count + 1 else count)

def publisherStep (cfg : Settings) (now : Nat) (jobs : JobTable) (nextId : JobId)
    (nextEntry : EntryId) (p : Nat) : PublisherPc → PublisherAct → Option PublisherEffect
  | .idle, .ingest payload =>
      some { pc := .inserting payload, events := [.called p (payload.dedupKey cfg.sha256)] }
  | .idle, .reconcile => some { pc := .sweeping (pendingJobs jobs nextId) 0 }
  | .inserting payload, .insert =>
      match findJob jobs nextId (payload.dedupKey cfg.sha256) with
      | some _ => some { pc := .selecting payload false }
      | none => some { pc := .selecting payload true, insert := some (payload.newJob cfg now),
                       events := [.inserted p nextId (payload.dedupKey cfg.sha256)] }
  | .selecting payload created, .select =>
      match findJob jobs nextId (payload.dedupKey cfg.sha256) with
      | none => some { pc := .raised }
      | some j =>
          if created || (jobs j).any (·.status = .pending) then
            some { pc := .claiming j (.ingest created) }
          else some { pc := .returned j false }
  | .sweeping todo count, .next =>
      match todo with
      | [] => some { pc := .swept count }
      | j :: rest => some { pc := .claiming j (.reconcile rest count) }
  | .claiming j caller, .claim =>
      match (jobs j).bind (·.claimPublish now) with
      | some job => some { pc := .refreshing j caller, write := some (j, job) }
      | none => some { pc := caller.resume j false }
  | .refreshing j caller, .refresh =>
      match jobs j with
      | some job => some { pc := .publishing j job caller }
      | none => some { pc := .raised }
  | .publishing j copy caller, .publish correlationId outcome =>
      let xadd := if outcome.landed then
        some ⟨nextEntry, j, copy.repo, copy.prNumber, copy.commitSha, correlationId⟩ else none
      match outcome with
      | .ok => some { pc := .confirming j copy nextEntry caller, xadd := xadd,
                      events := [.published j nextEntry] }
      | .raised _ exc => some { pc := .unclaiming j copy exc, xadd := xadd,
                                events := [.publishRaised j] }
  | .confirming j copy msgId caller, .confirm =>
      some { pc := caller.resume j true
             write := (jobs j).map fun job => (j, job.confirm now copy msgId) }
  | .unclaiming j copy exc, .unclaim =>
      some { pc := .raised, write := (jobs j).map fun job => (j, job.unclaim now copy exc) }
  | .idle, .crash | .returned _ _, .crash | .swept _, .crash | .raised, .crash
  | .crashed, .crash => none
  | _, .crash => some { pc := .crashed }
  | _, _ => none

end AutoPR.Jobs
