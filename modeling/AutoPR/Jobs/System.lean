import AutoPR.Library.Transition
import AutoPR.Jobs.Publisher

/-! The job pipeline as one transition system: the `pr_jobs` and `job_results`
tables, the stream with its consumer group, the clock, and any number of
publisher calls and message handlings. -/
namespace AutoPR.Jobs
open UnitOfWork Transition

abbrev WorkerId := Nat
abbrev PublisherId := Nat

structure JobResult where
  jobId : JobId
  summary : String
deriving DecidableEq, Repr

structure StreamEntry where
  message : StreamMessage
  deliveredAt : Option Nat := none
  acked : Bool := false
deriving DecidableEq, Repr

structure State where
  now : Nat
  jobs : JobTable
  nextId : JobId
  results : List JobResult
  stream : Table EntryId StreamEntry
  nextEntry : EntryId
  /-- The group's last-delivered id: entries below it have been delivered. -/
  cursor : EntryId
  workers : WorkerId → WorkerPc
  publishers : PublisherId → PublisherPc
  /-- Newest first. -/
  events : List Event

def State.initial : State where
  now := 0
  jobs := fun _ => none
  nextId := 0
  results := []
  stream := fun _ => none
  nextEntry := 0
  cursor := 0
  workers := fun _ => .idle
  publishers := fun _ => .idle
  events := []

inductive Action where
  | tick (elapsed : Nat)
  /-- XREADGROUP hands the next undelivered entry to a free handling. -/
  | consume (w : WorkerId)
  /-- XAUTOCLAIM hands over an entry that has been idle long enough. -/
  | reclaim (w : WorkerId) (entry : EntryId)
  | worker (w : WorkerId) (act : WorkerAct)
  | publisher (p : PublisherId) (act : PublisherAct)
deriving DecidableEq, Repr

def State.deliver (s : State) (w : WorkerId) (e : EntryId) (entry : StreamEntry) : State :=
  { s with
    stream := s.stream.write e (some { entry with deliveredAt := some s.now })
    workers := Function.update s.workers w (.received entry.message) }

def State.ack (s : State) (e : EntryId) : Table EntryId StreamEntry :=
  s.stream.write e ((s.stream e).map fun entry => { entry with acked := true })

def State.applyWorker (s : State) (w : WorkerId) (msg : StreamMessage) (eff : WorkerEffect) :
    State :=
  { s with
    jobs := s.jobs.write msg.jobId eff.write
    results := match eff.record with
      | some summary => insertIgnore (·.jobId) s.results ⟨msg.jobId, summary⟩
      | none => s.results
    stream := if eff.ack then s.ack msg.id else s.stream
    workers := Function.update s.workers w eff.pc
    events := eff.events ++ s.events }

def State.applyPublisher (s : State) (p : PublisherId) (eff : PublisherEffect) : State :=
  { s with
    jobs := match eff.insert with
      | some row => s.jobs.write s.nextId (some row)
      | none => match eff.write with
        | some (j, row) => s.jobs.write j (some row)
        | none => s.jobs
    nextId := if eff.insert.isSome then s.nextId + 1 else s.nextId
    stream := match eff.xadd with
      | some msg => s.stream.write s.nextEntry (some { message := msg })
      | none => s.stream
    nextEntry := if eff.xadd.isSome then s.nextEntry + 1 else s.nextEntry
    publishers := Function.update s.publishers p eff.pc
    events := eff.events ++ s.events }

def step (cfg : Settings) (s : State) : Action → Option State
  | .tick elapsed => some { s with now := s.now + elapsed }
  | .consume w =>
      match s.workers w, s.stream s.cursor with
      | .idle, some entry => some { s.deliver w s.cursor entry with cursor := s.cursor + 1 }
      | _, _ => none
  | .reclaim w e =>
      match s.workers w, s.stream e with
      | .idle, some entry =>
          match entry.deliveredAt with
          | some delivered =>
              if !entry.acked && delivered + cfg.reclaimIdle ≤ s.now then some (s.deliver w e entry)
              else none
          | none => none
      | _, _ => none
  | .worker w act => do
      let msg ← (s.workers w).message
      let eff ← workerStep cfg s.now (s.jobs msg.jobId) (s.workers w) act
      pure (s.applyWorker w msg eff)
  | .publisher p act =>
      (publisherStep cfg s.now s.jobs s.nextId s.nextEntry p (s.publishers p) act).map
        (s.applyPublisher p)

def pipeline (cfg : Settings) : System State Action where
  init := .initial
  step := step cfg

/-- Two attempts and a lease of one millisecond. -/
def Settings.small : Settings := { maxAttempts := 2, reclaimIdleMs := 1, sha256 := id }

def PRPayload.sample : PRPayload :=
  { repo := "acme/api", prNumber := 7, commitSha := "c0ffee", author := "dev" }

/-- One delivery of the sample payload, published without a fault. -/
def ingestRun (p : PublisherId) : List Action :=
  [.ingest .sample, .insert, .select, .claim, .refresh, .publish "" .ok, .confirm].map
    (.publisher p)

def workerRun (w : WorkerId) (acts : List WorkerAct) : List Action := acts.map (.worker w)

end AutoPR.Jobs
