import AutoPR.Routing.Stored

/-! What an attempt leaves behind. An answer of the GitHub client is marked on the row;
an exception passes the mark by, and leaves the row as the attempt found it. -/
namespace AutoPR.Routing
open Python UnitOfWork Transition

/-- Executed, or failed and so open to a retry. -/
def DecisionStatus.settled : DecisionStatus → Bool
  | .executed | .failed => true
  | .pending | .approved | .rejected => false

/-- The row that a run is carrying out. -/
def RouterPc.attempt : RouterPc → Option DecisionId
  | .posting _ target => target.map (·.1)
  | .marking _ d _ _ => some d
  | _ => none

/-- The row that a request has claimed and is carrying out. -/
def RequestPc.attempt : RequestPc → Option DecisionId
  | .loading d true | .handing d _ | .posting _ d _ | .marking _ d _ _ => some d
  | _ => none

def Step.actor : Step → Actor
  | .router r _ => .router r
  | .request q _ => .request q

namespace State

def attempt (s : State) : Actor → Option DecisionId
  | .router r => (s.routers r).attempt
  | .request q => (s.requests q).attempt

def settled (s : State) (d : DecisionId) : Bool := (s.rows d).any fun row => row.status.settled

/-- The step marks the row with a status that the session's copy does not show already,
or the row is settled as it is. -/
def accounted (s : State) (d : DecisionId) : Step → Bool
  | .router r .mark =>
      match s.routers r with
      | .marking _ _ copy result => result.status ≠ copy.status || s.settled d
      | _ => s.settled d
  | .request q .mark =>
      match s.requests q with
      | .handing _ copy => copy.status ≠ .executed || s.settled d
      | .marking _ _ copy result => result.status ≠ copy.status || s.settled d
      | _ => s.settled d
  | _ => s.settled d

end State

section
variable {cfg : Settings} {s t : State} {a : Step} {d : DecisionId} {row copy : ReviewDecision}
  {result : ActionResult}

theorem status_settled (result : ActionResult) : result.status.settled = true := by
  unfold ActionResult.status
  split <;> rfl

theorem mark_settled (row copy : ReviewDecision) (result : ActionResult) :
    (row.mark copy result).status.settled =
      (decide (result.status ≠ copy.status) || row.status.settled) := by
  by_cases heq : result.status = copy.status
  · rw [ReviewDecision.mark_clean heq]
    simp [heq]
  · rw [ReviewDecision.mark_dirty heq, status_settled]
    simp [heq]

theorem handOff_settled (row copy : ReviewDecision) (url : String) :
    (row.markExecuted copy url).status.settled =
      (decide (copy.status ≠ .executed) || row.status.settled) := by
  rw [ReviewDecision.markExecuted_status]
  by_cases heq : copy.status = .executed
  · rw [heq, column_clean]
    simp
  · rw [column_dirty (Ne.symm heq)]
    simp [heq, DecisionStatus.settled]

theorem settled_iff : s.settled d = true ↔ ∃ row, s.rows d = some row ∧ row.status.settled = true := by
  unfold State.settled
  cases s.rows d <;> simp

theorem RouterMove.finish {rows : DecisionTable} {nextId : DecisionId} {r : RouterId}
    {pc : RouterPc} {act : RouterAct} {eff : Effect RouterPc}
    (h : RouterMove cfg rows nextId r pc act eff) (hpc : pc.attempt = some d)
    (hend : eff.pc.attempt ≠ some d) :
    (∃ run copy result row, pc = .marking run d copy result ∧ act = .mark ∧ rows d = some row ∧
      eff.write d = some (row.mark copy result)) ∨
    (eff.write d = none ∧ (act = .mark → rows d = none ∧ ∃ copy, (d, copy) ∈ pc.copies)) := by
  cases h with
  | mark run i copy result row hrow =>
    cases hpc
    exact .inl ⟨run, copy, result, row, rfl, rfl, hrow, only_self d _⟩
  | markMissing run i copy result hrow =>
    cases hpc
    exact .inr ⟨rfl, fun _ => ⟨hrow, copy, List.mem_singleton_self _⟩⟩
  | post run target outcome | postNothing run target outcome | postError run target outcome
  | dbError | crash => exact .inr ⟨rfl, fun hact => by cases hact⟩
  | _ => cases hpc

theorem RequestMove.finish {rows : DecisionTable} {nextId : DecisionId} {q : RequestId}
    {pc : RequestPc} {act : RequestAct} {eff : Effect RequestPc}
    (h : RequestMove cfg rows nextId q pc act eff) (hpc : pc.attempt = some d)
    (hend : eff.pc.attempt ≠ some d) :
    (∃ channel copy result row, pc = .marking channel d copy result ∧ act = .mark ∧
      rows d = some row ∧ eff.write d = some (row.mark copy result)) ∨
    (∃ copy url row, pc = .handing d copy ∧ act = .mark ∧ rows d = some row ∧
      eff.write d = some (row.markExecuted copy url)) ∨
    (eff.write d = none ∧ (act = .mark → rows d = none ∧ ∃ copy, (d, copy) ∈ pc.copies)) := by
  cases h with
  | mark channel i copy result row hrow =>
    cases hpc
    exact .inl ⟨channel, copy, result, row, rfl, rfl, hrow, only_self d _⟩
  | hand i copy row hrow =>
    cases hpc
    exact .inr (.inl ⟨copy, _, row, rfl, rfl, hrow, only_self d _⟩)
  | markMissing channel i copy result hrow =>
    cases hpc
    exact .inr (.inr ⟨rfl, fun _ => ⟨hrow, copy, List.mem_singleton_self _⟩⟩)
  | handMissing i copy hrow =>
    cases hpc
    exact .inr (.inr ⟨rfl, fun _ => ⟨hrow, copy, List.mem_singleton_self _⟩⟩)
  | load i won row =>
    refine .inr (.inr ⟨?_, fun hact => by cases hact⟩)
    cases won <;> rfl
  | loadNone | post | postNothing | postError | dbError | crash =>
    exact .inr (.inr ⟨rfl, fun hact => by cases hact⟩)
  | _ => cases hpc

/-- In every run, when an attempt on a row ends, the row is executed or failed exactly if
the attempt ends by marking a status that its copy of the row does not show already, or
if the row is settled before that step. -/
theorem attempt_accounted {ledger : Ledger} (h : (reviews cfg ledger).Reachable anyStep s)
    (hstep : step cfg s a = some t) (hattempt : s.attempt a.actor = some d)
    (hend : t.attempt a.actor ≠ some d) :
    (∃ row, t.rows d = some row ∧ (row.status = .executed ∨ row.status = .failed)) ↔
      s.accounted d a = true := by
  have hwf := Reachable.wellFormed h
  have hsettled : ∀ status : DecisionStatus,
      (status = .executed ∨ status = .failed) ↔ status.settled = true := by
    intro status
    cases status <;> decide
  simp only [hsettled]
  rw [← settled_iff]
  have hmissing : ∀ copy, s.rows d = none → ¬ Loaded s.rows (d, copy) := by
    rintro copy hnone ⟨row, hrow, -⟩
    cases hnone.symm.trans hrow
  suffices hsame : t.settled d = s.accounted d a by rw [hsame]
  cases a with
  | router r act =>
    obtain ⟨eff, hmove, rfl⟩ := step_router hstep
    have hafter : eff.pc.attempt ≠ some d := by simpa [State.attempt, Step.actor] using hend
    obtain ⟨run, copy, result, row, hpc, rfl, hrow, hw⟩ | ⟨hw, hmark⟩ :=
      hmove.finish hattempt hafter
    · simp [State.settled, State.accounted, hpc, hw, hrow, mark_settled]
    · have hsame : (s.applyRouter r eff).settled d = s.settled d := by simp [State.settled, hw]
      rw [hsame]
      cases act with
      | mark =>
        obtain ⟨hnone, copy, hcopy⟩ := hmark rfl
        exact absurd (hwf.routers r _ hcopy) (hmissing copy hnone)
      | _ => rfl
  | request q act =>
    obtain ⟨eff, hmove, rfl⟩ := step_request hstep
    have hafter : eff.pc.attempt ≠ some d := by simpa [State.attempt, Step.actor] using hend
    obtain ⟨channel, copy, result, row, hpc, rfl, hrow, hw⟩ | ⟨copy, url, row, hpc, rfl, hrow, hw⟩ |
      ⟨hw, hmark⟩ := hmove.finish hattempt hafter
    · simp [State.settled, State.accounted, hpc, hw, hrow, mark_settled]
    · simpa [State.settled, State.accounted, hpc, hw, hrow] using handOff_settled row copy url
    · have hsame : (s.applyRequest q eff).settled d = s.settled d := by simp [State.settled, hw]
      rw [hsame]
      cases act with
      | mark =>
        obtain ⟨hnone, copy, hcopy⟩ := hmark rfl
        exact absurd (hwf.requests q _ hcopy) (hmissing copy hnone)
      | _ => rfl

end

def refusedRun : List Step :=
  queueRun ++ requestRun 0 [.begin .approve .ops 0, .claim, .load, .post (.answered refused)]

def refusedState : State := (reviews .small .empty).after refusedRun (by decide)

theorem attempt_accounted_refused :
    ∃ row, ((step .small refusedState (.request 0 .mark)).get (by decide)).rows 0 = some row ∧
      (row.status = .executed ∨ row.status = .failed) :=
  (attempt_accounted (Reachable.after (by decide) (System.Admits.any _ _))
    (Option.some_get (by decide)).symm (by decide) (by decide)).mpr (by decide)

/-- The approval's token cannot be minted, and so does that of an auto run. -/
def strandedRun : List Step :=
  queueRun ++ requestRun 0 [.begin .approve .ops 0, .claim, .load, .post .raised] ++
    routerRun 1 [.start { PRState.sample "low" with commitSha := some (.str "cafe") } true,
      .select, .insert, .post .raised]

def strandedState : State := (reviews .small .empty).after strandedRun (by decide)

/-- The approved row stays approved, and the row of the auto run pending. -/
theorem raised_post_strands :
    (reviews .small .empty).Reachable anyStep strandedState ∧
      strandedState.requests 0 = .raised ∧
      (strandedState.rows 0).map (·.status) = some .approved ∧
      (∃ result, strandedState.routers 1 = .returned result ∧ result.actionTaken = "action_failed") ∧
      (strandedState.rows 1).map (·.status) = some .pending :=
  ⟨Reachable.after _ (System.Admits.any _ _), rfl, by decide, ⟨_, rfl, rfl⟩, by decide⟩

end AutoPR.Routing
