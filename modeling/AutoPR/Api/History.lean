import Mathlib.Algebra.BigOperators.Group.List.Lemmas
import Mathlib.Algebra.GroupWithZero.Nat
import Mathlib.Data.List.Sort
import AutoPR.Api.Search
import AutoPR.Library.Browsing
import AutoPR.Webhook.QuotaBound

/-! The job history: a list on the server, newest first, that the dashboard reads page by page. The
endpoint counts the matches in one statement and selects the page in another. -/
namespace AutoPR.Jobs

def JobStatus.value : JobStatus → String
  | .pending => "pending"
  | .queued => "queued"
  | .processing => "processing"
  | .done => "done"
  | .dead => "dead"

def JobStatus.ofValue (status : String) : Option JobStatus :=
  [.pending, .queued, .processing, .done, .dead].find? (·.value = status)

theorem JobStatus.ofValue_value (status : JobStatus) : ofValue status.value = some status := by
  cases status <;> rfl

theorem JobStatus.value_injective : Function.Injective JobStatus.value := by
  intro status status' h
  rw [← Option.some_inj, ← ofValue_value, ← ofValue_value, h]

end AutoPR.Jobs

namespace AutoPR.Api
open Jobs UnitOfWork Browsing

section
variable {R : Type}

/-- `ORDER BY created_at DESC, id DESC`. -/
def Newer (created : R → Nat) (p q : Nat × R) : Prop :=
  created q.2 < created p.2 ∨ created q.2 = created p.2 ∧ q.1 ≤ p.1

instance decidableNewer (created : R → Nat) (p q : Nat × R) : Decidable (Newer created p q) :=
  inferInstanceAs (Decidable (_ ∨ _ ∧ _))

def kept (rows : Table Nat R) (nextId : Nat) (keep : R → Bool) : List (Nat × R) :=
  (List.range nextId).filterMap fun i => ((rows i).filter keep).map (i, ·)

def newestFirst (created : R → Nat) (rows : Table Nat R) (nextId : Nat) (keep : R → Bool) :
    List (Nat × R) :=
  (kept rows nextId keep).insertionSort (Newer created)

def paged {α : Type} (offset limit : Int) (rows : List α) : List α :=
  page (max 1 (min limit 200)).toNat (max 0 offset).toNat rows

end

structure JobView where
  id : JobId
  repo : String
  prNumber : Int
  commitSha : String
  author : String
  event : String
  status : String
  attempts : Nat
  lastError : Option String
  summary : Option String
  createdAt : Nat
  updatedAt : Nat
deriving DecidableEq

/-- `_job_view`, with the summary of the job's result. -/
def jobView (results : List JobResult) (job : JobId × PRJob) : JobView where
  id := job.1
  repo := job.2.repo
  prNumber := job.2.prNumber
  commitSha := job.2.commitSha
  author := job.2.author
  event := job.2.event
  status := job.2.status.value
  attempts := job.2.attempts
  lastError := job.2.lastError
  summary := (results.find? (·.jobId = job.1)).map (·.summary)
  createdAt := job.2.createdAt
  updatedAt := job.2.updatedAt

structure JobsPage where
  count : Nat
  total : Nat
  limit : Int
  offset : Int
  jobs : List JobView
deriving DecidableEq

/-- The jobs that the parameters of a request select. -/
def jobKept (f : CaseFold) (q : Option String) (status : Option JobStatus) (job : PRJob) : Bool :=
  jobMatches f q job && status.all (job.status = ·)

def jobHistory (f : CaseFold) (q : Option String) (status : Option JobStatus) (s : Jobs.State) :
    List (JobId × PRJob) :=
  newestFirst PRJob.createdAt s.jobs s.nextId (jobKept f q status)

/-- The filter that a status parameter asks for; nothing if it names no status. -/
def statusFilter (status : Option String) : Option (Option JobStatus) :=
  if status.getD "" = "" then some none else (JobStatus.ofValue (status.getD "")).map some

/-- `GET /jobs`. The matches are counted in one state and the page is selected in another. -/
def listJobs (f : CaseFold) (counted read : Jobs.State) (limit offset : Int)
    (q status : Option String) : JobsPage :=
  match statusFilter status with
  | none => { count := 0, total := 0, limit := limit, offset := offset, jobs := [] }
  | some filter =>
      let rows := paged offset limit (jobHistory f q filter read)
      { count := rows.length
        total := (jobHistory f q filter counted).length
        limit := max 1 (min limit 200)
        offset := max 0 offset
        jobs := rows.map (jobView read.results) }

/-- `_count_by_status`: the values of the groups, each with its count. -/
def countByStatus (column : List JobStatus) : List (String × Nat) :=
  column.dedup.map fun status => (status.value, column.count status)

structure JobCounts where
  total : Nat
  pending : Nat
  queued : Nat
  processing : Nat
  done : Nat
  dead : Nat
deriving DecidableEq

def JobCounts.of (counts : JobCounts) : JobStatus → Nat
  | .pending => counts.pending
  | .queued => counts.queued
  | .processing => counts.processing
  | .done => counts.done
  | .dead => counts.dead

/-- The jobs of `GET /stats`. -/
def jobStats (s : Jobs.State) : JobCounts :=
  let jobs := countByStatus ((kept s.jobs s.nextId fun _ => true).map (·.2.status))
  let get (status : JobStatus) := (jobs.lookup status.value).getD 0
  { total := (jobs.map (·.2)).sum
    pending := get .pending
    queued := get .queued
    processing := get .processing
    done := get .done
    dead := get .dead }

structure Pager where
  total : Nat
  limit : Nat
  offset : Nat

def Pager.to (pager : Pager) : Nat := min (pager.offset + pager.limit) pager.total

def Pager.last (pager : Pager) : Nat := (pager.total - 1) / pager.limit * pager.limit

/-- Whether there is a Next button that is not disabled: a pager of one page is not shown. -/
def Pager.hasNext (pager : Pager) : Bool :=
  !decide (pager.total ≤ pager.limit) && !decide (pager.total ≤ pager.to)

def Pager.next (pager : Pager) : Nat := min pager.last (pager.offset + pager.limit)

def Pager.hasPrevious (pager : Pager) : Bool :=
  !decide (pager.total ≤ pager.limit) && pager.offset ≠ 0

def Pager.previous (pager : Pager) : Nat := pager.offset - pager.limit

def pageSize : Nat := 25

/-- What a reader of the Jobs page is served who presses Next as long as there is one, and each time
waits for the page; nothing if the requests run out before. Each request has the states of its two
statements. -/
def readAll (f : CaseFold) (q status : Option String) :
    Nat → List (Jobs.State × Jobs.State) → Option (List JobsPage)
  | _, [] => none
  | offset, (counted, read) :: rest =>
      let served := listJobs f counted read pageSize offset q status
      let pager : Pager := ⟨served.total, pageSize, offset⟩
      if pager.hasNext then (readAll f q status pager.next rest).map (served :: ·)
      else some [served]

section
variable {R : Type} {created : R → Nat} {rows rows' : Table Nat R} {nextId nextId' : Nat}
  {keep : R → Bool} {i j : Nat} {row : R}

instance totalNewer : Std.Total (Newer created) where
  total p q := by
    unfold Newer
    omega

instance transNewer : IsTrans (Nat × R) (Newer created) where
  trans p q r hpq hqr := by
    unfold Newer at *
    omega

theorem mem_kept {p : Nat × R} :
    p ∈ kept rows nextId keep ↔ p.1 < nextId ∧ rows p.1 = some p.2 ∧ keep p.2 = true := by
  unfold kept
  rw [List.mem_filterMap]
  constructor
  · rintro ⟨i, hi, h⟩
    obtain ⟨row, hrow, rfl⟩ := Option.map_eq_some_iff.mp h
    obtain ⟨hstored, hkeep⟩ := Option.filter_eq_some_iff.mp hrow
    exact ⟨List.mem_range.mp hi, hstored, hkeep⟩
  · rintro ⟨hi, hstored, hkeep⟩
    exact ⟨p.1, List.mem_range.mpr hi,
      Option.map_eq_some_iff.mpr ⟨p.2, Option.filter_eq_some_iff.mpr ⟨hstored, hkeep⟩, rfl⟩⟩

theorem mem_newestFirst {p : Nat × R} :
    p ∈ newestFirst created rows nextId keep ↔
      p.1 < nextId ∧ rows p.1 = some p.2 ∧ keep p.2 = true :=
  (List.mem_insertionSort _).trans mem_kept

theorem kept_nodup : ((kept rows nextId keep).map (·.1)).Nodup := by
  unfold kept
  rw [List.map_filterMap]
  apply List.nodup_range.filterMap
  intro i j k hi hj
  obtain ⟨p, hp, rfl⟩ := Option.map_eq_some_iff.mp hi
  obtain ⟨p', hp', heq⟩ := Option.map_eq_some_iff.mp hj
  obtain ⟨row, -, rfl⟩ := Option.map_eq_some_iff.mp hp
  obtain ⟨row', -, rfl⟩ := Option.map_eq_some_iff.mp hp'
  exact heq.symm

def listed (created : R → Nat) (rows : Table Nat R) (nextId : Nat) (keep : R → Bool) : List Nat :=
  (newestFirst created rows nextId keep).map (·.1)

theorem listed_nodup : (listed created rows nextId keep).Nodup :=
  ((List.perm_insertionSort _ _).map _).nodup_iff.mpr kept_nodup

theorem newestFirst_length : (newestFirst created rows nextId keep).length =
    (kept rows nextId keep).length := List.length_insertionSort _ _

theorem kept_filter : kept rows nextId keep =
    (kept rows nextId fun _ => true).filter fun p => keep p.2 := by
  unfold kept
  rw [List.filter_filterMap]
  congr 1
  funext i
  cases rows i with
  | none => rfl
  | some row => cases hkeep : keep row <;> simp [Option.filter, hkeep]

end

theorem lookup_group (statuses : List JobStatus) (count : JobStatus → Nat) (status : JobStatus) :
    (statuses.map fun status => (status.value, count status)).lookup status.value =
      if status ∈ statuses then some (count status) else none := by
  induction statuses with
  | nil => rfl
  | cons first rest ih =>
    rw [List.map_cons]
    by_cases heq : status = first
    · subst heq
      rw [List.lookup_cons_self, if_pos List.mem_cons_self]
    · have hne : (status.value == first.value) = false :=
        beq_false_of_ne (JobStatus.value_injective.ne heq)
      rw [List.lookup_cons, hne, ih]
      simp only [List.mem_cons, heq, false_or]

theorem get_countByStatus (column : List JobStatus) (status : JobStatus) :
    ((countByStatus column).lookup status.value).getD 0 = column.count status := by
  unfold countByStatus
  rw [lookup_group]
  split
  · rfl
  · rename_i hnone
    exact (List.count_eq_zero.mpr fun hmem => hnone (List.mem_dedup.mpr hmem)).symm

theorem sum_countByStatus (column : List JobStatus) :
    ((countByStatus column).map (·.2)).sum = column.length := by
  unfold countByStatus
  rw [List.map_map]
  exact List.sum_map_count_dedup_eq_length column

theorem jobStats_of (s : Jobs.State) (status : JobStatus) :
    (jobStats s).of status = (kept s.jobs s.nextId fun job => job.status = status).length := by
  have hget : (jobStats s).of status =
      ((countByStatus ((kept s.jobs s.nextId fun _ => true).map (·.2.status))).lookup
        status.value).getD 0 := by
    cases status <;> rfl
  have hkept : (kept s.jobs s.nextId fun job => job.status = status) = _ := kept_filter
  rw [hget, get_countByStatus, List.count_eq_countP, List.countP_map, List.countP_eq_length_filter,
    hkept]
  rfl

theorem jobStats_total (s : Jobs.State) :
    (jobStats s).total = (kept s.jobs s.nextId fun _ => true).length :=
  (sum_countByStatus _).trans (List.length_map _)

end AutoPR.Api
