import AutoPR.Library.UnitOfWork
import AutoPR.Routing.Policy

/-! The `review_decisions` row and the statements on it. Approve, reject and
requeue are compare-and-sets on the status; the outcome of a post and the startup
sweep are attribute writes by primary key. -/
namespace AutoPR.Routing
open Python UnitOfWork

abbrev DecisionId := Nat

inductive DecisionStatus where
  | pending
  | approved
  | rejected
  | executed
  | failed
deriving DecidableEq, Repr

/-- Executed or declined. -/
def DecisionStatus.final : DecisionStatus → Bool
  | .executed | .rejected => true
  | .pending | .approved | .failed => false

/-- A status from which an approver can take the row. -/
def DecisionStatus.takeable : DecisionStatus → Bool
  | .pending | .failed => true
  | .approved | .executed | .rejected => false

structure ReviewDecision where
  dedupKey : String
  repo : String
  prNumber : Int
  commitSha : String
  installationId : Option Int
  action : String
  risk : PyVal
  reason : PyVal
  title : String
  body : String
  status : DecisionStatus
  resultUrl : Option String := none
  lastError : Option String := none

abbrev DecisionTable := Table DecisionId ReviewDecision

def installationIdFrom (u : Unicode) (state : PRState) : Option Int :=
  match state.installationId.getD .none with
  | .int n => if 0 < n then some n else none
  | .str s => (parseInt u (strip s)).filter fun n => 0 < n
  | _ => none

/-- The row that `enqueue_tracked` adds. A null risk or reason takes the default of
its column. -/
def newDecision (u : Unicode) (state : PRState) (decision : RoutingDecision) (key : String) :
    Py ReviewDecision := do
  let repo ← (state.repo.getD (.str "?")).asStr
  let prNumber ← (state.prNumber.getD (.int 0)).toInt u
  let sha ← (state.commitSha.getD (.str "?")).asStr
  return {
    dedupKey := key
    repo := repo
    prNumber := prNumber
    commitSha := sha
    installationId := installationIdFrom u state
    action := decision.action.value
    risk := if decision.risk.isNone then .str "medium" else decision.risk
    reason := if decision.reason.isNone then .str "" else decision.reason
    title := decision.title
    body := decision.body
    status := .pending }

def findDecision (rows : DecisionTable) (nextId : DecisionId) (key : String) :
    Option (DecisionId × ReviewDecision) :=
  (List.range nextId).findSome? fun d =>
    (rows d).bind fun row => if row.dedupKey = key then some (d, row) else none

def ReviewDecision.transition (source target : DecisionStatus) (row : ReviewDecision) :
    Option ReviewDecision :=
  if row.status = source then some { row with status := target } else none

/-- The first statement of `claim_approval`. -/
def ReviewDecision.claim : ReviewDecision → Option ReviewDecision :=
  ReviewDecision.transition .pending .approved

def ReviewDecision.retry : ReviewDecision → Option ReviewDecision :=
  ReviewDecision.transition .failed .approved

def ReviewDecision.reject : ReviewDecision → Option ReviewDecision :=
  ReviewDecision.transition .pending .rejected

def ReviewDecision.requeue (row : ReviewDecision) : Option ReviewDecision :=
  (row.transition .failed .pending).map fun row => { row with lastError := none }

/-- What a guarded update does to an object that the session holds already: its
WHERE clause is evaluated on the object, whatever the database matched. -/
def ReviewDecision.evaluate (source target : DecisionStatus) (copy : ReviewDecision) :
    ReviewDecision :=
  (copy.transition source target).getD copy

def ReviewDecision.flush (row copy new : ReviewDecision) : ReviewDecision :=
  { row with
    status := column copy.status new.status row.status
    resultUrl := column copy.resultUrl new.resultUrl row.resultUrl
    lastError := column copy.lastError new.lastError row.lastError }

def ReviewDecision.markExecuted (row copy : ReviewDecision) (url : String) : ReviewDecision :=
  row.flush copy { copy with status := .executed, resultUrl := some url }

def ReviewDecision.markFailed (row copy : ReviewDecision) (detail : String) : ReviewDecision :=
  row.flush copy { copy with status := .failed, lastError := some detail }

def ReviewDecision.sweep (row copy : ReviewDecision) : ReviewDecision :=
  row.flush copy { copy with
    status := .failed
    lastError := some "interrupted during approval; re-approve or reject" }

/-- The columns that no statement after the INSERT assigns. -/
def ReviewDecision.content (row : ReviewDecision) : ReviewDecision :=
  { row with status := .pending, resultUrl := none, lastError := none }

section
variable {row new copy other : ReviewDecision} {source target : DecisionStatus}

theorem ReviewDecision.transition_eq_some :
    row.transition source target = some new ↔
      row.status = source ∧ new = { row with status := target } := by
  unfold ReviewDecision.transition
  split
  · rename_i h
    rw [Option.some.injEq, eq_comm]
    exact ⟨fun hnew => ⟨h, hnew⟩, fun hnew => hnew.2⟩
  · rename_i h
    simp [h]

theorem ReviewDecision.requeue_eq_some :
    row.requeue = some new ↔
      row.status = .failed ∧ new = { row with status := .pending, lastError := none } := by
  simp only [ReviewDecision.requeue, Option.map_eq_some_iff, ReviewDecision.transition_eq_some]
  constructor
  · rintro ⟨mid, ⟨hst, rfl⟩, rfl⟩
    exact ⟨hst, rfl⟩
  · rintro ⟨hst, rfl⟩
    exact ⟨_, ⟨hst, rfl⟩, rfl⟩

theorem ReviewDecision.transition_content (h : row.transition source target = some new) :
    new.content = row.content := by
  rw [(ReviewDecision.transition_eq_some.mp h).2]
  rfl

theorem ReviewDecision.requeue_content (h : row.requeue = some new) :
    new.content = row.content := by
  rw [(ReviewDecision.requeue_eq_some.mp h).2]
  rfl

@[simp] theorem ReviewDecision.flush_content : (row.flush copy other).content = row.content := rfl

@[simp] theorem ReviewDecision.evaluate_content :
    (copy.evaluate source target).content = copy.content := by
  unfold ReviewDecision.evaluate
  cases h : copy.transition source target with
  | none => rfl
  | some new => exact ReviewDecision.transition_content h

@[simp] theorem ReviewDecision.markExecuted_status (url : String) :
    (row.markExecuted copy url).status = column copy.status .executed row.status := rfl

@[simp] theorem ReviewDecision.markFailed_status (detail : String) :
    (row.markFailed copy detail).status = column copy.status .failed row.status := rfl

@[simp] theorem ReviewDecision.sweep_status :
    (row.sweep copy).status = column copy.status .failed row.status := rfl

end

theorem findDecision_eq_some {rows : DecisionTable} {nextId d : DecisionId} {key : String}
    {row : ReviewDecision} (h : findDecision rows nextId key = some (d, row)) :
    rows d = some row ∧ row.dedupKey = key := by
  obtain ⟨i, -, hi⟩ := List.exists_of_findSome?_eq_some h
  obtain ⟨found, hfound, hkey⟩ := Option.bind_eq_some_iff.mp hi
  split at hkey
  · rename_i heq
    cases hkey
    exact ⟨hfound, heq⟩
  · cases hkey

theorem findDecision_eq_none {rows : DecisionTable} {nextId d : DecisionId} {key : String}
    {row : ReviewDecision} (h : findDecision rows nextId key = none) (hd : d < nextId)
    (hrow : rows d = some row) : row.dedupKey ≠ key := by
  have hne := List.findSome?_eq_none_iff.mp h d (List.mem_range.mpr hd)
  intro hkey
  simp [hrow, hkey] at hne

end AutoPR.Routing
