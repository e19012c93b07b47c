import AutoPR.Tenancy.Readable
import AutoPR.Webhook.Parse

/-! Which deliveries are read for a job without an exception, and what an id that is not usable
becomes. The shapes are tested where the parser gets to them, and not before. -/
namespace AutoPR.Webhook
open Python Tenancy

/-- A number, or what `int` refuses; only an infinity is neither. -/
def isFinite (u : Unicode) (v : PyVal) : Bool :=
  match v.toInt u with
  | .ok _ | .error .typeError | .error .valueError => true
  | .error .attributeError | .error .overflowError | .error .recursionError | .error .dataError => false

def readableId (u : Unicode) (payload : PyVal) : Bool :=
  let installation := payload.field "installation"
  installation.isObjectual &&
    ((installation.field "id").isNone || isFinite u (installation.field "id"))

def readablePullRequest (u : Unicode) (event : String) (payload : PyVal) : Bool :=
  let pr := payload.field "pull_request"
  let repository := payload.field "repository"
  let head := pr.field "head"
  event = "ping" || payload.isObject && (!pr.truthy ||
    repository.isObjectual && pr.isObject && (pr.field "user").isObjectual &&
      (!(repository.field "full_name").truthy || (pr.field "number").isNone ||
        head.isObjectual && (!(head.field "sha").truthy ||
          isNumber u (pr.field "number") && readableId u payload)))

def isHashable : PyVal → Bool
  | .list _ | .dict _ => false
  | .none | .bool _ | .int _ | .float _ _ _ | .str _ => true

def isFailed : PyVal → Bool
  | .str s => s ∈ failureConclusions
  | _ => false

/-- Up to the first number the items are objects or missing; later ones are not looked at. -/
def readableNumbers (u : Unicode) : List PyVal → Bool
  | [] => true
  | item :: rest =>
      item.isObjectual &&
        if (item.field "number").isNone then readableNumbers u rest
        else isNumber u (item.field "number")

def readablePulls (u : Unicode) (objs : PyVal) : Bool :=
  match (objs.or (.list [])).iter with
  | .ok items => readableNumbers u items
  | .error _ => false

def statesNumber (objs : PyVal) : Bool :=
  match (objs.or (.list [])).iter with
  | .ok items => items.any fun item => !(item.field "number").isNone
  | .error _ => false

def readableCheckLogs (cr : PyVal) : Bool :=
  let output := cr.field "output"
  output.isObjectual && isTextual (output.field "title") && isTextual (output.field "summary") &&
    isTextual (output.field "text")

def readableWorkflowLogs (wr : PyVal) : Bool :=
  let headCommit := wr.field "head_commit"
  isTextual (wr.field "display_title") && headCommit.isObjectual &&
    isTextual (headCommit.field "message")

def readableFailure (u : Unicode) (owner : String) (logs : PyVal → Bool) (run : PyVal) : Bool :=
  readablePulls u (run.field "pull_requests") && (run.field owner).isObjectual && logs run

def readableRun (u : Unicode) (owner : String) (logs : PyVal → Bool) (run : PyVal) : Bool :=
  run.isObject && isHashable (run.field "conclusion") &&
    (!isFailed (run.field "conclusion") || readableFailure u owner logs run)

def asksJob (run : PyVal) : Bool :=
  isFailed (run.field "conclusion") && (run.field "head_sha").truthy &&
    statesNumber (run.field "pull_requests")

def readableCi (u : Unicode) (event owner : String) (logs : PyVal → Bool) (payload : PyVal) : Bool :=
  let repository := payload.field "repository"
  let run := (payload.field event).or (.dict [])
  payload.isObject && (!(payload.field "action").eqStr "completed" ||
    repository.isObjectual && (!(repository.field "full_name").truthy ||
      readableRun u owner logs run && (!asksJob run || readableId u payload)))

def readableEvent (u : Unicode) (event : String) (payload : PyVal) : Bool :=
  if event = "check_run" then readableCi u "check_run" "app" readableCheckLogs payload
  else if event = "workflow_run" then
    readableCi u "workflow_run" "actor" readableWorkflowLogs payload
  else readablePullRequest u event payload

section
variable {u : Unicode} {event : String} {payload v : PyVal}

theorem returns_installationIdFrom :
    Returns (installationIdFrom u payload) ↔
      payload.isObject = true ∧ readableId u payload = true := by
  unfold installationIdFrom installationObject readableId
  simp only [bind_assoc, pure_bind, returns_get_bind, isObject_or, field_or, returns_unless,
    Bool.and_eq_true, Bool.or_eq_true]
  refine and_congr_right fun _ => and_congr_right fun _ => or_congr_right ?_
  unfold isFinite
  cases ((payload.field "installation").field "id").toInt u with
  | ok n => exact iff_of_true (Returns.ok _) rfl
  | error e =>
    cases e with
    | typeError | valueError => exact iff_of_true (Returns.ok _) rfl
    | attributeError | overflowError | recursionError | dataError =>
      exact iff_of_false (not_returns _) Bool.false_ne_true

theorem returns_parsePullRequestEvent :
    Returns (parsePullRequestEvent u event payload) ↔
      readablePullRequest u event payload = true := by
  have hread (v : PyVal) (make : Int → Option Int → Option Candidate) :
      Returns (v.toInt u >>= fun n => installationIdFrom u payload >>= fun i => pure (make n i)) ↔
        isNumber u v = true ∧ payload.isObject = true ∧ readableId u payload = true := by
    refine (returns_bind_of fun n => returns_bind_pure fun i => Returns.ok (make n i)).trans ?_
    rw [returns_toInt, returns_installationIdFrom]
  unfold parsePullRequestEvent readablePullRequest
  simp only [returns_get_bind, isObject_or, field_or, returns_unless, hread, Bool.or_eq_true,
    Bool.and_eq_true, decide_eq_true_eq]
  tauto

theorem returns_isFailure : Returns (isFailure v) ↔ isHashable v = true := by
  cases v with
  | list | dict => exact iff_of_false (not_returns _) Bool.false_ne_true
  | none | bool | int | float | str => exact iff_of_true (Returns.ok _) rfl

theorem isFailure_eq (h : isHashable v = true) : isFailure v = .ok (isFailed v) := by
  cases v with
  | list | dict => cases h
  | none | bool | int | float | str => rfl

theorem returns_firstNumber {items : List PyVal} :
    Returns (firstNumber u items) ↔ readableNumbers u items = true := by
  induction items with
  | nil => exact iff_of_true (Returns.ok _) rfl
  | cons item rest ih =>
    unfold firstNumber readableNumbers
    rw [returns_get_bind, isObject_or, field_or, Bool.and_eq_true]
    refine and_congr_right fun _ => ?_
    split
    · exact ih
    · exact (returns_bind_pure fun n => Returns.ok _).trans returns_toInt

theorem firstNumber_isSome {items : List PyVal} {found : Option Int}
    (h : firstNumber u items = .ok found) :
    found.isSome = items.any fun item => !(item.field "number").isNone := by
  induction items with
  | nil =>
    cases h
    rfl
  | cons item rest ih =>
    have hobject := returns_firstNumber.mp ⟨found, h⟩
    unfold readableNumbers at hobject
    rw [Bool.and_eq_true, ← isObject_or] at hobject
    unfold firstNumber at h
    rw [get_eq hobject.1, field_or] at h
    change (if _ then _ else _) = _ at h
    rw [List.any_cons]
    split at h
    · rename_i hnone
      rw [ih h, hnone]
      rfl
    · rename_i hnumber
      obtain ⟨n, -, h⟩ := ok_of_bind h
      cases h
      rw [Bool.not_eq_true] at hnumber
      rw [hnumber]
      rfl

theorem returns_firstPrNumber : Returns (firstPrNumber u v) ↔ readablePulls u v = true := by
  unfold firstPrNumber readablePulls
  rw [returns_bind]
  cases (v.or (.list [])).iter with
  | error e => exact iff_of_false (by rintro ⟨items, hitems, -⟩; cases hitems) Bool.false_ne_true
  | ok items => simp [returns_firstNumber]

theorem firstPrNumber_isSome {found : Option Int} (h : firstPrNumber u v = .ok found) :
    found.isSome = statesNumber v := by
  unfold firstPrNumber at h
  obtain ⟨items, hitems, hfirst⟩ := ok_of_bind h
  unfold statesNumber
  rw [hitems]
  exact firstNumber_isSome hfirst

theorem returns_stripped : Returns (stripped v) ↔ isTextual v = true := returns_or_strip ""

theorem returns_checkRunLogs (h : v.isObject = true) :
    Returns (checkRunLogs u v) ↔ readableCheckLogs v = true := by
  unfold checkRunLogs readableCheckLogs
  simp only [returns_get_bind, isObject_or, field_or, h, true_and, Bool.and_eq_true, and_assoc]
  refine and_congr_right fun houtput => ?_
  rw [← returns_stripped, ← returns_stripped, ← returns_stripped]
  apply returns_bind_of
  intro title
  rw [returns_get_bind, isObject_or, field_or, and_iff_right houtput]
  apply returns_bind_of
  intro summary
  rw [returns_get_bind, isObject_or, field_or, and_iff_right houtput]
  exact returns_bind_pure fun text => Returns.ok _

theorem returns_workflowRunLogs (h : v.isObject = true) :
    Returns (workflowRunLogs u v) ↔ readableWorkflowLogs v = true := by
  unfold workflowRunLogs readableWorkflowLogs
  simp only [returns_get_bind, h, true_and, Bool.and_eq_true, and_assoc]
  rw [← returns_stripped, ← returns_stripped]
  apply returns_bind_of
  intro title
  rw [returns_get_bind, isObject_or, field_or]
  refine and_congr_right fun _ => ?_
  exact returns_bind_pure fun message => Returns.ok _

section
variable {owner name : String} {logs : PyVal → Py String} {readable : PyVal → Bool} {run : PyVal}

theorem returns_readRun
    (hlogs : run.isObject = true → (Returns (logs run) ↔ readable run = true)) :
    Returns (readRun u owner name logs run) ↔ readableRun u owner readable run = true := by
  unfold readRun readableRun readableFailure
  rw [returns_get_bind, Bool.and_eq_true, Bool.and_eq_true, and_assoc]
  refine and_congr_right fun hrun => ?_
  cases hhash : isHashable (run.field "conclusion") with
  | false =>
    refine iff_of_false ?_ (by simp)
    rw [returns_bind]
    rintro ⟨failed, hfailed, -⟩
    have hhash' := returns_isFailure.mp ⟨failed, hfailed⟩
    rw [hhash] at hhash'
    cases hhash'
  | true =>
    rw [isFailure_eq hhash]
    change Returns (if (!isFailed (run.field "conclusion")) = true then _ else _) ↔ _
    rw [returns_unless, Bool.or_eq_true, Bool.and_eq_true, Bool.and_eq_true, and_assoc, and_iff_right rfl]
    refine or_congr_right ?_
    rw [returns_get_bind, and_iff_right hrun, returns_get_bind, and_iff_right hrun,
      ← returns_firstPrNumber, ← hlogs hrun]
    apply returns_bind_of
    intro n
    rw [returns_get_bind, and_iff_right hrun, returns_get_bind, isObject_or]
    refine and_congr_right fun _ => ?_
    exact returns_bind_pure fun text => Returns.ok _

theorem readRun_asks {found : Option FailedRun} (h : readRun u owner name logs run = .ok found) :
    (∃ failed n, found = some failed ∧ failed.sha.truthy = true ∧ failed.prNumber = some n) ↔
      asksJob run = true := by
  unfold readRun at h
  obtain ⟨conclusion, hconclusion, h⟩ := ok_of_bind h
  have hrun := returns_get.mp ⟨conclusion, hconclusion⟩
  rw [get_eq hrun] at hconclusion
  cases hconclusion
  obtain ⟨failed, hfailed, h⟩ := ok_of_bind h
  rw [isFailure_eq (returns_isFailure.mp ⟨failed, hfailed⟩)] at hfailed
  cases hfailed
  unfold asksJob
  split at h
  · rename_i hquiet
    rw [Bool.not_eq_true'] at hquiet
    cases h
    simp [hquiet]
  · rename_i hfailed
    rw [Bool.not_eq_true', Bool.not_eq_false] at hfailed
    obtain ⟨sha, hsha, h⟩ := ok_of_bind h
    rw [get_eq hrun] at hsha
    cases hsha
    obtain ⟨pulls, hpulls, h⟩ := ok_of_bind h
    rw [get_eq hrun] at hpulls
    cases hpulls
    obtain ⟨n, hn, h⟩ := ok_of_bind h
    obtain ⟨owned, -, h⟩ := ok_of_bind h
    obtain ⟨author, -, h⟩ := ok_of_bind h
    obtain ⟨text, -, h⟩ := ok_of_bind h
    cases h
    rw [← firstPrNumber_isSome hn, hfailed]
    simp [Option.isSome_iff_exists]

end

theorem returns_parseRun {owner name : String} {logs : PyVal → Py String} {readable : PyVal → Bool}
    (hlogs : ∀ v, v.isObject = true → (Returns (logs v) ↔ readable v = true))
    {candidate : Option FailedRun → Py (Option Candidate)}
    (hnone : ∀ found, (¬ ∃ failed n, found = some failed ∧ failed.sha.truthy = true ∧
      failed.prNumber = some n) → Returns (candidate found))
    (hsome : ∀ failed n, failed.sha.truthy = true → failed.prNumber = some n →
      (Returns (candidate (some failed)) ↔ Returns (installationIdFrom u payload)))
    (hpayload : payload.isObject = true) (run : PyVal) :
    Returns (readRun u owner name logs run >>= candidate) ↔
      readableRun u owner readable run = true ∧
        (asksJob run = false ∨ readableId u payload = true) := by
  rw [returns_bind, ← returns_readRun (hlogs run)]
  constructor
  · rintro ⟨found, hfound, hrest⟩
    refine ⟨⟨found, hfound⟩, ?_⟩
    cases hasks : asksJob run with
    | false => exact .inl rfl
    | true =>
      obtain ⟨failed, n, rfl, hsha, hn⟩ := (readRun_asks hfound).mpr hasks
      rw [hsome failed n hsha hn, returns_installationIdFrom] at hrest
      exact .inr hrest.2
  · rintro ⟨⟨found, hfound⟩, hid⟩
    refine ⟨found, hfound, ?_⟩
    cases hasks : asksJob run with
    | false =>
      apply hnone
      rw [readRun_asks hfound, hasks]
      exact Bool.false_ne_true
    | true =>
      obtain ⟨failed, n, rfl, hsha, hn⟩ := (readRun_asks hfound).mpr hasks
      rw [hsome failed n hsha hn, returns_installationIdFrom]
      rw [hasks] at hid
      exact ⟨hpayload, hid.resolve_left (by simp)⟩

theorem returns_parseCiEvent (h : event ∈ ciEvents) :
    Returns (parseCiEvent u event payload) ↔ readableEvent u event payload = true := by
  unfold parseCiEvent
  rw [returns_get_bind, returns_unless]
  rw [returns_get_bind, returns_get_bind, isObject_or, field_or, returns_unless]
  -- what the two kinds of run have in common
  extract_lets candidate
  have hnone : ∀ found, (¬ ∃ failed n, found = some failed ∧ failed.sha.truthy = true ∧
      failed.prNumber = some n) → Returns (candidate found) := by
    intro found hnot
    dsimp only [candidate]
    cases found with
    | none => exact Returns.ok _
    | some failed =>
      dsimp only
      rw [returns_unless]
      cases hsha : failed.sha.truthy with
      | false => exact .inl rfl
      | true =>
        right
        cases hn : failed.prNumber with
        | none => exact Returns.ok _
        | some n => exact absurd ⟨failed, n, rfl, hsha, hn⟩ hnot
  have hsome : ∀ failed n, failed.sha.truthy = true → failed.prNumber = some n →
      (Returns (candidate (some failed)) ↔ Returns (installationIdFrom u payload)) := by
    intro failed n hsha hn
    dsimp only [candidate]
    rw [returns_unless, hsha, hn, or_iff_right (by simp)]
    exact returns_bind_pure fun i => Returns.ok _
  have hread (owner name : String) (logs : PyVal → Py String) (readable : PyVal → Bool)
      (hlogs : ∀ v, v.isObject = true → (Returns (logs v) ↔ readable v = true))
      (hpayload : payload.isObject = true) :
      Returns (payload.get event .none >>= fun run =>
          readRun u owner name logs (run.or (.dict [])) >>= candidate) ↔
        readableRun u owner readable ((payload.field event).or (.dict [])) = true ∧
          (asksJob ((payload.field event).or (.dict [])) = false ∨ readableId u payload = true) := by
    rw [returns_get_bind, and_iff_right hpayload]
    exact returns_parseRun hlogs hnone hsome hpayload _
  have hshape (owner : String) (readable : PyVal → Bool) (x : Py (Option Candidate))
      (hx : payload.isObject = true → (Returns x ↔
        readableRun u owner readable ((payload.field event).or (.dict [])) = true ∧
          (asksJob ((payload.field event).or (.dict [])) = false ∨ readableId u payload = true))) :
      (payload.isObject = true ∧ ((!(payload.field "action").eqStr "completed") = true ∨
        payload.isObject = true ∧ (payload.field "repository").isObjectual = true ∧
          ((!((payload.field "repository").field "full_name").truthy) = true ∨ Returns x))) ↔
        readableCi u event owner readable payload = true := by
    unfold readableCi
    simp only [Bool.and_eq_true, Bool.or_eq_true, Bool.not_eq_true']
    refine and_congr_right fun hpayload => or_congr_right ?_
    rw [and_iff_right hpayload, hx hpayload]
  unfold readableEvent
  obtain rfl | rfl : event = "check_run" ∨ event = "workflow_run" := by simpa [ciEvents] using h
  · rw [if_pos rfl, if_pos rfl]
    exact hshape "app" readableCheckLogs _
      (hread "app" "slug" (checkRunLogs u) readableCheckLogs fun _ => returns_checkRunLogs)
  · rw [if_neg (by decide), if_pos rfl, if_neg (by decide), if_pos rfl]
    exact hshape "actor" readableWorkflowLogs _
      (hread "actor" "login" (workflowRunLogs u) readableWorkflowLogs
        fun _ => returns_workflowRunLogs)

theorem returns_parseEvent : Returns (parseEvent u event payload) ↔ readableEvent u event payload = true := by
  unfold parseEvent
  split
  · rename_i hci
    exact returns_parseCiEvent hci
  · rename_i hother
    simp only [ciEvents, List.mem_cons, List.not_mem_nil, or_false, not_or] at hother
    unfold readableEvent
    rw [if_neg hother.1, if_neg hother.2]
    exact returns_parsePullRequestEvent

theorem installationIdFrom_some {i : Int} (h : installationIdFrom u payload = .ok (some i)) :
    ((payload.field "installation").field "id").toInt u = .ok i := by
  have hpayload := (returns_installationIdFrom.mp ⟨_, h⟩).1
  unfold installationIdFrom at h
  obtain ⟨installation, hobject, h⟩ := ok_of_bind h
  rw [installationObject_eq hpayload] at hobject
  cases hobject
  obtain ⟨raw, hraw, h⟩ := ok_of_bind h
  rw [get_eq (returns_get.mp ⟨raw, hraw⟩), field_or] at hraw
  cases hraw
  split at h
  · cases h
  · cases hint : ((payload.field "installation").field "id").toInt u with
    | ok n =>
      rw [hint] at h
      cases h
      rfl
    | error e =>
      rw [hint] at h
      cases e <;> cases h

theorem parseEvent_nameless {c : Candidate}
    (hid : isNumber u ((payload.field "installation").field "id") = false)
    (h : parseEvent u event payload = .ok (some c)) : c.installationId = none := by
  obtain ⟨-, hfrom⟩ := parseEvent_stems u event payload _ h c rfl
  cases hi : c.installationId with
  | none => rfl
  | some i =>
    rw [hi] at hfrom
    have hnumber := returns_toInt.mp ⟨i, installationIdFrom_some hfrom⟩
    rw [hid] at hnumber
    cases hnumber

end

end AutoPR.Webhook
