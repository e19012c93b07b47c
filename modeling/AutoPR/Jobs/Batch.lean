import Mathlib.Data.Finset.Insert
import Mathlib.Data.List.ReduceOption
import AutoPR.Library.Interleaving
import AutoPR.Library.Liveness
import AutoPR.Library.Python
import AutoPR.Jobs.Steps

/-! One poll cycle of a worker: the entries it reclaims and the new ones it reads, decoded
and handled one after the other or by the threads of a pool. Each handling runs as the
local state machine of its entry; a cycle ends in the count that `run_once` returns or in
the exception that leaves it. -/
namespace AutoPR.Jobs
open UnitOfWork Python Liveness

inductive Raised where
  | unicodeDecodeError
  | keyError
  | valueError
deriving DecidableEq, Repr

inductive Wire where
  | bytes (value : ByteArray)
  | str (value : String)

def Wire.decode : Wire → Except Raised String
  | .bytes value =>
      match String.fromUTF8? value with
      | some text => .ok text
      | none => .error .unicodeDecodeError
  | .str value => .ok value

structure RawEntry where
  id : EntryId
  fields : List (Wire × Wire)

structure Message where
  id : EntryId
  fields : List (String × String)
deriving DecidableEq, Repr

def setItem (out : List (String × String)) (key val : String) : List (String × String) :=
  if out.any (·.1 = key) then out.map fun item => if item.1 = key then (key, val) else item
  else out ++ [(key, val)]

def decodeFields (raw : List (Wire × Wire)) : Except Raised (List (String × String)) :=
  raw.foldlM (fun out item => do
    let key ← item.1.decode
    let val ← item.2.decode
    pure (setItem out key val)) []

def parseEntries : List (Option RawEntry) → Except Raised (List Message)
  | [] => pure []
  | none :: rest => parseEntries rest
  | some entry :: rest => do
      let fields ← decodeFields entry.fields
      let messages ← parseEntries rest
      pure (⟨entry.id, fields⟩ :: messages)

/-- The answer to XREADGROUP by streams; no answer at all is the empty list. -/
def parseXread : List (String × List (Option RawEntry)) → Except Raised (List Message)
  | [] => pure []
  | (_, entries) :: rest => do
      let messages ← parseEntries entries
      let more ← parseXread rest
      pure (messages ++ more)

/-- What the two queue calls of a cycle hand over. -/
structure Batch where
  reclaimed : List (Option RawEntry) := []
  fresh : List (String × List (Option RawEntry)) := []

/-- The entries of the batch, in the order in which the worker takes them. -/
def Batch.entries (batch : Batch) : List RawEntry :=
  (batch.reclaimed ++ batch.fresh.flatMap (·.2)).reduceOption

def Batch.messages (batch : Batch) : Except Raised (List Message) := do
  let reclaimed ← parseEntries batch.reclaimed
  let fresh ← parseXread batch.fresh
  pure (reclaimed ++ fresh)

/-- `int(msg.fields["job_id"])`. -/
def Message.jobId (u : Unicode) (msg : Message) : Except Raised Int :=
  match msg.fields.lookup "job_id" with
  | none => .error .keyError
  | some text =>
      match parseInt u text with
      | none => .error .valueError
      | some job => .ok job

/-- The message as its handling carries it, which uses its id alone: the row is looked up by
the `job` itself, and what goes into events is not recorded here. -/
def Message.received (msg : Message) (job : Int) : StreamMessage where
  id := msg.id
  jobId := job.toNat
  repo := (msg.fields.lookup "repo").getD ""
  prNumber := 0
  commitSha := (msg.fields.lookup "commit_sha").getD ""
  correlationId := (msg.fields.lookup "correlation_id").getD ""

def Message.apart (u : Unicode) (msg other : Message) : Prop :=
  ∀ job, msg.jobId u = .ok job → other.jobId u ≠ .ok job

/-- No two entries are about one job. -/
def Batch.distinct (u : Unicode) (batch : Batch) : Prop :=
  ∀ messages, batch.messages = .ok messages → messages.Pairwise (Message.apart u)

@[ext] structure Shared where
  jobs : Table Int PRJob
  /-- The summaries in `job_results`. -/
  results : Table Int String
  acked : Finset EntryId

/-- The effects of one statement of the handling of an entry and its job. A second result of
a job is dropped. -/
def Shared.apply (s : Shared) (id : EntryId) (job : Int) (eff : WorkerEffect) : Shared where
  jobs := s.jobs.write job eff.write
  results := s.results.write job (if (s.results job).isSome then none else eff.record)
  acked := if eff.ack then insert id s.acked else s.acked

/-- What a handling meets at each of its points: the time, and how the statement or the
handler that is due there comes out. The process lives. -/
structure Surroundings (cfg : Settings) where
  next : WorkerPc → Nat × WorkerAct
  meets : ∀ pc row, pc.message.isSome → (workerStep cfg (next pc).1 row pc (next pc).2).isSome
  lives : ∀ pc, (next pc).2 ≠ .crash

def handlerAct : Except String String → WorkerAct
  | .ok summary => .succeed summary
  | .error exc => .raise exc

def Surroundings.calm (cfg : Settings) (now : Nat) (handler : PRJob → Except String String) :
    Surroundings cfg where
  next
    | .escalating _ _ => (now, .escalate)
    | .claiming _ _ => (now, .stampClaim)
    | .stamped _ _ _ => (now, .claim)
    | .running _ copy _ => (now, handlerAct (handler copy))
    | .releasing _ _ _ _ => (now, .release)
    | .acking _ => (now, .ack)
    | .failed _ _ _ => (now, .reload)
    | .erring _ _ _ _ => (now, .recordError)
    | .received _ | .idle | .finished | .crashed => (now, .read)
  meets pc row h := by
    cases pc with
    | idle => cases h
    | finished => cases h
    | crashed => cases h
    | escalating msg copy => cases row <;> rfl
    | stamped msg copy stamp =>
      unfold workerStep
      dsimp only
      split <;> rfl
    | running msg copy stamp =>
      dsimp only
      cases handler copy <;> cases row <;> rfl
    | failed msg exc cause => cases row <;> rfl
    | _ => rfl
  lives pc := by
    cases pc with
    | running msg copy stamp =>
      dsimp only
      cases handler copy <;> exact WorkerAct.noConfusion
    | _ => exact WorkerAct.noConfusion

/-- A worker process. The surroundings of an entry's handling do not depend on what the
other handlings do. -/
structure Host where
  unicode : Unicode
  settings : Settings
  surroundings : Message → Surroundings settings

inductive Task where
  /-- In the queue of the pool, or not called yet. -/
  | waiting
  | handling (pc : WorkerPc)
  /-- The exception left `_handle_message`. -/
  | raised (exc : Raised)
deriving DecidableEq, Repr

def Task.over : Task → Bool
  | .waiting => false
  | .handling pc => pc.message.isNone
  | .raised _ => true

/-- The call returned. -/
def Task.returned : Task → Bool
  | .handling pc => pc.message.isNone
  | .waiting | .raised _ => false

def Host.advance (host : Host) (msg : Message) (s : Shared) : Task → Shared × Task
  | .waiting =>
      match msg.jobId host.unicode with
      | .error exc => (s, .raised exc)
      | .ok job => (s, .handling (.received (msg.received job)))
  | .handling pc =>
      match msg.jobId host.unicode with
      | .error _ => (s, .handling pc)
      | .ok job =>
          let due := (host.surroundings msg).next pc
          match workerStep host.settings due.1 (s.jobs job) pc due.2 with
          | none => (s, .handling pc)
          | some eff => (s.apply msg.id job eff, .handling eff.pc)
  | .raised exc => (s, .raised exc)

def WorkerPc.left : WorkerPc → Nat
  | .received _ => 7
  | .claiming _ _ => 6
  | .stamped _ _ _ => 5
  | .running _ _ _ | .escalating _ _ => 4
  | .releasing _ _ _ _ | .acking _ => 3
  | .failed _ _ _ => 2
  | .erring _ _ _ _ => 1
  | .idle | .finished | .crashed => 0

def Task.left : Task → Nat
  | .waiting => 8
  | .handling pc => pc.left
  | .raised _ => 0

def Host.proceed (host : Host) (msg : Message) (x : Shared × Task) : Shared × Task :=
  host.advance msg x.1 x.2

def Host.handleMessage (host : Host) (msg : Message) (s : Shared) : Shared × Task :=
  (host.proceed msg)^[Task.waiting.left] (s, .waiting)

structure Pool where
  shared : Shared
  tasks : Nat → Task

def Pool.start (s : Shared) : Pool := ⟨s, fun _ => .waiting⟩

def Pool.busy (p : Pool) (count : Nat) : Nat :=
  (List.range count).countP fun i => !(p.tasks i).over && p.tasks i ≠ .waiting

def Pool.mayStart (p : Pool) (concurrency count i : Nat) : Prop :=
  p.busy count < concurrency ∧ ∀ k < i, p.tasks k ≠ .waiting

instance (p : Pool) (concurrency count i : Nat) : Decidable (p.mayStart concurrency count i) :=
  inferInstanceAs (Decidable (_ ∧ _))

/-- All futures have a result. -/
def Pool.done (p : Pool) (count : Nat) : Bool := (List.range count).all fun i => (p.tasks i).over

def Pool.handled (p : Pool) (count : Nat) : Nat :=
  (List.range count).countP fun i => (p.tasks i).returned

def Pool.put (p : Pool) (i : Nat) (x : Shared × Task) : Pool :=
  ⟨x.1, Function.update p.tasks i x.2⟩

def Host.poolStep (host : Host) (concurrency : Nat) (messages : List Message) (i : Nat) (p : Pool) :
    Option Pool :=
  match messages[i]? with
  | none => none
  | some msg =>
      if (p.tasks i).over = true ∨
          (p.tasks i = .waiting ∧ ¬ p.mayStart concurrency messages.length i) then none
      else some (p.put i (host.advance msg p.shared (p.tasks i)))

inductive Cycle where
  | serial (rest : List Message) (handled : Nat) (shared : Shared)
  | pooled (messages : List Message) (pool : Pool)
  | ended (answer : Except Raised Nat) (shared : Shared)

def concurrency (requested : Int) : Nat := (max 1 requested).toNat

/-- `run_once` up to the dispatch. -/
def runOnce (requested : Int) (batch : Batch) (s : Shared) : Cycle :=
  match batch.messages with
  | .error exc => .ended (.error exc) s
  | .ok [] => .ended (.ok 0) s
  | .ok messages =>
      if concurrency requested = 1 ∨ messages.length = 1 then .serial messages 0 s
      else .pooled messages (.start s)

def Host.cycleStep (host : Host) (requested : Int) (i : Nat) : Cycle → Option Cycle
  | .serial [] handled s => some (.ended (.ok handled) s)
  | .serial (msg :: rest) handled s =>
      match host.handleMessage msg s with
      | (s', .raised exc) => some (.ended (.error exc) s')
      | (s', _) => some (.serial rest (handled + 1) s')
  | .pooled messages p =>
      if p.done messages.length then some (.ended (.ok (p.handled messages.length)) p.shared)
      else (host.poolStep (concurrency requested) messages i p).map (.pooled messages)
  | .ended _ _ => none

def Host.Next (host : Host) (requested : Int) (_ : Unit) (c d : Cycle) : Prop :=
  ∃ i, host.cycleStep requested i c = some d

/-- Whatever the scheduler does, the cycle comes to this end. -/
def Host.EndsIn (host : Host) (requested : Int) (c : Cycle) (answer : Except Raised Nat)
    (s : Shared) : Prop :=
  Inevitable (host.Next requested) (· = .ended answer s) c

/-- The cycle handles every entry of the batch, and leaves the rows, the results and the
acknowledgements that a worker without a pool leaves. -/
def Host.Serves (host : Host) (requested : Int) (batch : Batch) (s : Shared) : Prop :=
  ∃ answer after, host.EndsIn 1 (runOnce 1 batch s) answer after ∧
    host.EndsIn requested (runOnce requested batch s) (.ok batch.entries.length) after

end AutoPR.Jobs
