import AutoPR.Routing.System

/-! What one step can do. Each statement and each client call of a router run or a
request is one constructor below, and no later proof unfolds the step functions. -/
namespace AutoPR.Routing
open Python UnitOfWork Transition

inductive RouterMove (cfg : Settings) (rows : DecisionTable) (nextId : DecisionId)
    (r : RouterId) : RouterPc → RouterAct → Effect RouterPc → Prop where
  | start (state stored) :
      RouterMove cfg rows nextId r .idle (.start state stored)
        { pc := startRun cfg state stored, events := [.started r state stored] }
  | found (run key d row) (hfind : findDecision rows nextId key = some (d, row)) :
      RouterMove cfg rows nextId r (.selecting run key) .select
        { pc := afterEnqueue cfg.unicode run d row false }
  | build (run key row) (hfind : findDecision rows nextId key = none)
      (hnew : newDecision cfg.unicode run.state run.decision key = .ok row) :
      RouterMove cfg rows nextId r (.selecting run key) .select { pc := .inserting run key row }
  | buildError (run key e) (hfind : findDecision rows nextId key = none)
      (hnew : newDecision cfg.unicode run.state run.decision key = .error e) :
      RouterMove cfg rows nextId r (.selecting run key) .select { pc := .returned (run.failed none) }
  | insert (run key row) (hfind : findDecision rows nextId key = none) :
      RouterMove cfg rows nextId r (.inserting run key row) .insert
        { pc := afterEnqueue cfg.unicode run nextId row true, write := only nextId row,
          grow := true, events := [.set nextId .pending (run.setter r)] }
  | insertTaken (run key row d old) (hfind : findDecision rows nextId key = some (d, old)) :
      RouterMove cfg rows nextId r (.inserting run key row) .insert { pc := .reselecting run key }
  | refound (run key d row) (hfind : findDecision rows nextId key = some (d, row)) :
      RouterMove cfg rows nextId r (.reselecting run key) .select
        { pc := afterEnqueue cfg.unicode run d row false }
  | refoundNone (run key) (hfind : findDecision rows nextId key = none) :
      RouterMove cfg rows nextId r (.reselecting run key) .select
        { pc := .returned (run.failed none) }
  | notify (run d copy comment outcome) :
      RouterMove cfg rows nextId r (.notifying run d copy comment) (.notify outcome)
        { pc := afterNotice run d copy, events := [.notified r d comment outcome.ok] }
  | requeueWon (run d row new) (hrow : rows d = some row) (hnew : row.requeue = some new) :
      RouterMove cfg rows nextId r (.requeueing run d) .requeue
        { pc := .returned (run.took (some d) "queued_for_approval"), write := only d new,
          events := [.set d .pending (.gated r)] }
  | requeueLost (run d) (hrow : (rows d).bind (·.requeue) = none) :
      RouterMove cfg rows nextId r (.requeueing run d) .requeue
        { pc := .returned (run.took (some d) "queued_for_approval") }
  | post (run target outcome comment) (hcomment : run.comment cfg.unicode = .ok (some comment)) :
      RouterMove cfg rows nextId r (.posting run target) (.post outcome)
        { pc := afterPost run target outcome,
          events := [.posted (.router r) (target.map (·.1)) comment outcome.ok] }
  | postNothing (run target outcome) (hcomment : run.comment cfg.unicode = .ok none) :
      RouterMove cfg rows nextId r (.posting run target) (.post outcome)
        { pc := afterPost run target (.answered noAction) }
  | postError (run target outcome e) (hcomment : run.comment cfg.unicode = .error e) :
      RouterMove cfg rows nextId r (.posting run target) (.post outcome)
        { pc := afterPost run target .raised }
  | mark (run d copy result row) (hrow : rows d = some row) :
      RouterMove cfg rows nextId r (.marking run d copy result) .mark
        { pc := .returned
            { run.took (some d) (if result.ok then "executed" else "action_failed") with
              actionUrl := some result.url },
          write := only d (row.mark copy result),
          events := markEvents d copy result.status (.auto r) }
  | markMissing (run d copy result) (hrow : rows d = none) :
      RouterMove cfg rows nextId r (.marking run d copy result) .mark
        { pc := .returned (run.failed (some d)) }
  | dbError (pc result) (hidle : pc ≠ .idle) (hpost : ∀ run target, pc ≠ .posting run target) :
      RouterMove cfg rows nextId r pc .dbError { pc := .returned result }
  | crash (pc) (hidle : pc ≠ .idle) : RouterMove cfg rows nextId r pc .crash { pc := .crashed }

section
variable {cfg : Settings} {rows : DecisionTable} {nextId : DecisionId} {r : RouterId}
  {eff : Effect RouterPc} {run : RouterRun} {key : String}

theorem selecting_move (h : routerStep cfg rows nextId r (.selecting run key) .select = some eff) :
    RouterMove cfg rows nextId r (.selecting run key) .select eff := by
  unfold routerStep at h
  dsimp only at h
  cases hfind : findDecision rows nextId key with
  | some found =>
    rw [hfind] at h
    cases h
    exact .found run key found.1 found.2 hfind
  | none =>
    cases hnew : newDecision cfg.unicode run.state run.decision key with
    | ok row =>
      rw [hfind, hnew] at h
      cases h
      exact .build run key row hfind hnew
    | error e =>
      rw [hfind, hnew] at h
      cases h
      exact .buildError run key e hfind hnew

theorem inserting_move {row : ReviewDecision}
    (h : routerStep cfg rows nextId r (.inserting run key row) .insert = some eff) :
    RouterMove cfg rows nextId r (.inserting run key row) .insert eff := by
  unfold routerStep at h
  dsimp only at h
  cases hfind : findDecision rows nextId key with
  | some found =>
    rw [hfind] at h
    cases h
    exact .insertTaken run key row found.1 found.2 hfind
  | none =>
    rw [hfind] at h
    cases h
    exact .insert run key row hfind

theorem reselecting_move
    (h : routerStep cfg rows nextId r (.reselecting run key) .select = some eff) :
    RouterMove cfg rows nextId r (.reselecting run key) .select eff := by
  unfold routerStep at h
  dsimp only at h
  cases hfind : findDecision rows nextId key with
  | some found =>
    rw [hfind] at h
    cases h
    exact .refound run key found.1 found.2 hfind
  | none =>
    rw [hfind] at h
    cases h
    exact .refoundNone run key hfind

theorem runRequeueing_move {d : DecisionId}
    (h : routerStep cfg rows nextId r (.requeueing run d) .requeue = some eff) :
    RouterMove cfg rows nextId r (.requeueing run d) .requeue eff := by
  unfold routerStep at h
  dsimp only at h
  cases hnew : (rows d).bind (·.requeue) with
  | some new =>
    rw [hnew] at h
    cases h
    obtain ⟨row, hrow, hreq⟩ := Option.bind_eq_some_iff.mp hnew
    exact .requeueWon run d row new hrow hreq
  | none =>
    rw [hnew] at h
    cases h
    exact .requeueLost run d hnew

theorem runPosting_move {target : Option (DecisionId × ReviewDecision)} {outcome : PostOutcome}
    (h : routerStep cfg rows nextId r (.posting run target) (.post outcome) = some eff) :
    RouterMove cfg rows nextId r (.posting run target) (.post outcome) eff := by
  unfold routerStep at h
  dsimp only at h
  cases hcomment : run.comment cfg.unicode with
  | error e =>
    rw [hcomment] at h
    cases h
    exact .postError run target outcome e hcomment
  | ok made =>
    cases made with
    | none =>
      rw [hcomment] at h
      cases h
      exact .postNothing run target outcome hcomment
    | some comment =>
      rw [hcomment] at h
      cases h
      exact .post run target outcome comment hcomment

theorem runMarking_move {d : DecisionId} {copy : ReviewDecision} {result : ActionResult}
    (h : routerStep cfg rows nextId r (.marking run d copy result) .mark = some eff) :
    RouterMove cfg rows nextId r (.marking run d copy result) .mark eff := by
  unfold routerStep at h
  dsimp only at h
  cases hrow : rows d with
  | some row =>
    rw [hrow] at h
    cases h
    exact .mark run d copy result row hrow
  | none =>
    rw [hrow] at h
    cases h
    exact .markMissing run d copy result hrow

end

theorem routerStep_move {cfg : Settings} {rows : DecisionTable} {nextId : DecisionId}
    {r : RouterId} {pc : RouterPc} {act : RouterAct} {eff : Effect RouterPc}
    (h : routerStep cfg rows nextId r pc act = some eff) :
    RouterMove cfg rows nextId r pc act eff := by
  cases pc <;> cases act <;> try cases h
  case idle.start.refl state stored => exact .start state stored
  case selecting.select => exact selecting_move h
  case inserting.insert => exact inserting_move h
  case reselecting.select => exact reselecting_move h
  case notifying.notify.refl run d copy comment outcome =>
    exact .notify run d copy comment outcome
  case requeueing.requeue => exact runRequeueing_move h
  case posting.post => exact runPosting_move h
  case marking.mark => exact runMarking_move h
  case selecting.dbError.refl | inserting.dbError.refl | reselecting.dbError.refl
    | requeueing.dbError.refl | marking.dbError.refl =>
    exact .dbError _ _ (fun hpc => by cases hpc) (fun _ _ hpc => by cases hpc)
  all_goals exact .crash _ fun hpc => by cases hpc

@[simp] theorem guarded_won (d : DecisionId) (row : ReviewDecision) (status : DecisionStatus)
    (setter : Setter) (next : Bool → Effect RequestPc) :
    guarded d (some row) status setter next = { next true with
      write := only d row, events := (next true).events ++ [.set d status setter] } := rfl

@[simp] theorem guarded_lost (d : DecisionId) (status : DecisionStatus) (setter : Setter)
    (next : Bool → Effect RequestPc) : guarded d none status setter next = next false := rfl

inductive RequestMove (cfg : Settings) (rows : DecisionTable) (nextId : DecisionId)
    (q : RequestId) : RequestPc → RequestAct → Effect RequestPc → Prop where
  | begin (verb channel d) :
      RequestMove cfg rows nextId q .idle (.begin verb channel d)
        { pc := startRequest cfg verb channel d, events := [.requested q] }
  | beginRequeue (d) :
      RequestMove cfg rows nextId q .idle (.beginRequeue d)
        { pc := .requeueing d, events := [.requested q] }
  | beginSweep :
      RequestMove cfg rows nextId q .idle .beginSweep { pc := .sweeping, events := [.requested q] }
  | lookApprove (repo n installation d row) (hrow : rows d = some row)
      (haddr : addressable cfg.unicode repo installation row = true) :
      RequestMove cfg rows nextId q (.looking .approve repo n installation d) .look
        { pc := .claiming (.comment repo n installation) d (some row) }
  | lookReject (repo n installation d row) (hrow : rows d = some row)
      (haddr : addressable cfg.unicode repo installation row = true) :
      RequestMove cfg rows nextId q (.looking .reject repo n installation d) .look
        { pc := .rejecting (.comment repo n installation) d (some row) }
  | lookNone (verb repo n installation d)
      (hrow : (rows d).filter (addressable cfg.unicode repo installation) = none) :
      RequestMove cfg rows nextId q (.looking verb repo n installation d) .look
        { pc := (Channel.comment repo n installation).finish d verb .noDecision }
  | claimWon (channel d copy row new) (hrow : rows d = some row) (hnew : row.claim = some new) :
      RequestMove cfg rows nextId q (.claiming channel d copy) .claim
        { claimNext cfg q channel d copy true with
          write := only d new
          events := (claimNext cfg q channel d copy true).events ++ [.set d .approved (.human q)] }
  | claimLost (channel d copy) (hrow : (rows d).bind (·.claim) = none) :
      RequestMove cfg rows nextId q (.claiming channel d copy) .claim
        (claimNext cfg q channel d copy false)
  | load (d won row) (hrow : rows d = some row) :
      RequestMove cfg rows nextId q (.loading d won) .load (afterClaim cfg q .ops d row won)
  | loadNone (d won) (hrow : rows d = none) :
      RequestMove cfg rows nextId q (.loading d won) .load { pc := .answered .notFound }
  | retryWon (channel d copy row new) (hrow : rows d = some row) (hnew : row.retry = some new) :
      RequestMove cfg rows nextId q (.retrying channel d copy) .retry
        { pc := afterClaimed cfg channel d (copy.evaluate .failed .approved)
          write := only d new
          events := [.claimed q d, .set d .approved (.human q)] }
  | retryLost (channel d copy) (hrow : (rows d).bind (·.retry) = none) :
      RequestMove cfg rows nextId q (.retrying channel d copy) .retry
        { pc := channel.finish d .approve .inProgress }
  | hand (d copy row) (hrow : rows d = some row) :
      RequestMove cfg rows nextId q (.handing d copy) .mark
        { pc := .answered (.handedOff (prReviewUrl cfg copy))
          write := only d (row.markExecuted copy (prReviewUrl cfg copy))
          events := markEvents d copy .executed (.human q) }
  | handMissing (d copy) (hrow : rows d = none) :
      RequestMove cfg rows nextId q (.handing d copy) .mark { pc := .raised }
  | post (channel d copy outcome comment) (hcomment : copy.comment cfg.unicode = .ok (some comment)) :
      RequestMove cfg rows nextId q (.posting channel d copy) (.post outcome)
        { pc := afterExecute channel d copy outcome
          events := [.posted (.request q) (some d) comment outcome.ok] }
  | postNothing (channel d copy outcome) (hcomment : copy.comment cfg.unicode = .ok none) :
      RequestMove cfg rows nextId q (.posting channel d copy) (.post outcome)
        { pc := .marking channel d copy noAction }
  | postError (channel d copy outcome e) (hcomment : copy.comment cfg.unicode = .error e) :
      RequestMove cfg rows nextId q (.posting channel d copy) (.post outcome) { pc := .raised }
  | mark (channel d copy result row) (hrow : rows d = some row) :
      RequestMove cfg rows nextId q (.marking channel d copy result) .mark
        { pc := afterMark channel d result
          write := only d (row.mark copy result)
          events := markEvents d copy result.status (.human q) }
  | markMissing (channel d copy result) (hrow : rows d = none) :
      RequestMove cfg rows nextId q (.marking channel d copy result) .mark { pc := .raised }
  | rejectWon (channel d copy row new) (hrow : rows d = some row) (hnew : row.reject = some new) :
      RequestMove cfg rows nextId q (.rejecting channel d copy) .reject
        { pc := rejectNext channel d copy true, write := only d new,
          events := [.set d .rejected (.human q)] }
  | rejectLost (channel d copy) (hrow : (rows d).bind (·.reject) = none) :
      RequestMove cfg rows nextId q (.rejecting channel d copy) .reject
        { pc := rejectNext channel d copy false }
  | loadRejected (d won row) (hrow : rows d = some row) :
      RequestMove cfg rows nextId q (.loadingRejected d won) .load
        { pc := afterReject .ops d row won }
  | loadRejectedNone (d won) (hrow : rows d = none) :
      RequestMove cfg rows nextId q (.loadingRejected d won) .load { pc := .answered .notFound }
  | requeueWon (d row new) (hrow : rows d = some row) (hnew : row.requeue = some new) :
      RequestMove cfg rows nextId q (.requeueing d) .requeue
        { pc := .answered (.requeued true), write := only d new,
          events := [.set d .pending (.human q)] }
  | requeueLost (d) (hrow : (rows d).bind (·.requeue) = none) :
      RequestMove cfg rows nextId q (.requeueing d) .requeue
        { pc := .answered (.requeued false) }
  | select (copies) (hsome : copies ≠ []) (hcopies : approvedRows rows nextId = copies) :
      RequestMove cfg rows nextId q .sweeping .select { pc := .swept copies }
  | selectNone (hcopies : approvedRows rows nextId = []) :
      RequestMove cfg rows nextId q .sweeping .select { pc := .answered (.swept 0) }
  | commit (copies) :
      RequestMove cfg rows nextId q (.swept copies) .commit
        { pc := .answered (.swept copies.length)
          write := fun d => (copies.lookup d).bind fun copy => (rows d).map (·.sweep copy)
          events := copies.map fun c => .set c.1 .failed (.sweep q) }
  | reply (comment outcome result) :
      RequestMove cfg rows nextId q (.replying comment outcome) (.reply result)
        { pc := match result with
            | .answered _ => .answered outcome
            | .raised => .raised
          events := [.replied q comment result.ok] }
  | dbError (pc) (hidle : pc ≠ .idle) (hpost : ∀ channel d copy, pc ≠ .posting channel d copy) :
      RequestMove cfg rows nextId q pc .dbError { pc := .raised }
  | crash (pc) (hidle : pc ≠ .idle) : RequestMove cfg rows nextId q pc .crash { pc := .crashed }

section
variable {cfg : Settings} {rows : DecisionTable} {nextId : DecisionId} {q : RequestId}
  {eff : Effect RequestPc} {channel : Channel} {d : DecisionId} {copy : ReviewDecision}

theorem looking_move {verb : Verb} {repo : String} {n installation : Int}
    (h : requestStep cfg rows nextId q (.looking verb repo n installation d) .look = some eff) :
    RequestMove cfg rows nextId q (.looking verb repo n installation d) .look eff := by
  unfold requestStep at h
  dsimp only at h
  cases hrow : (rows d).filter (addressable cfg.unicode repo installation) with
  | none =>
    rw [hrow] at h
    cases h
    exact .lookNone verb repo n installation d hrow
  | some row =>
    obtain ⟨hsome, haddr⟩ := Option.filter_eq_some_iff.mp hrow
    rw [hrow] at h
    cases verb with
    | approve =>
      cases h
      exact .lookApprove repo n installation d row hsome haddr
    | reject =>
      cases h
      exact .lookReject repo n installation d row hsome haddr

theorem claiming_move {held : Option ReviewDecision}
    (h : requestStep cfg rows nextId q (.claiming channel d held) .claim = some eff) :
    RequestMove cfg rows nextId q (.claiming channel d held) .claim eff := by
  cases h
  cases hnew : (rows d).bind (·.claim) with
  | none => exact .claimLost channel d held hnew
  | some new =>
    obtain ⟨row, hrow, hclaim⟩ := Option.bind_eq_some_iff.mp hnew
    exact .claimWon channel d held row new hrow hclaim

theorem loading_move {won : Bool}
    (h : requestStep cfg rows nextId q (.loading d won) .load = some eff) :
    RequestMove cfg rows nextId q (.loading d won) .load eff := by
  unfold requestStep at h
  dsimp only at h
  cases hrow : rows d with
  | none =>
    rw [hrow] at h
    cases h
    exact .loadNone d won hrow
  | some row =>
    rw [hrow] at h
    cases h
    exact .load d won row hrow

theorem retrying_move
    (h : requestStep cfg rows nextId q (.retrying channel d copy) .retry = some eff) :
    RequestMove cfg rows nextId q (.retrying channel d copy) .retry eff := by
  cases h
  cases hnew : (rows d).bind (·.retry) with
  | none => exact .retryLost channel d copy hnew
  | some new =>
    obtain ⟨row, hrow, hretry⟩ := Option.bind_eq_some_iff.mp hnew
    exact .retryWon channel d copy row new hrow hretry

theorem handing_move (h : requestStep cfg rows nextId q (.handing d copy) .mark = some eff) :
    RequestMove cfg rows nextId q (.handing d copy) .mark eff := by
  unfold requestStep at h
  dsimp only at h
  cases hrow : rows d with
  | none =>
    rw [hrow] at h
    cases h
    exact .handMissing d copy hrow
  | some row =>
    rw [hrow] at h
    cases h
    exact .hand d copy row hrow

theorem posting_move {outcome : PostOutcome}
    (h : requestStep cfg rows nextId q (.posting channel d copy) (.post outcome) = some eff) :
    RequestMove cfg rows nextId q (.posting channel d copy) (.post outcome) eff := by
  unfold requestStep at h
  dsimp only at h
  cases hcomment : copy.comment cfg.unicode with
  | error e =>
    rw [hcomment] at h
    cases h
    exact .postError channel d copy outcome e hcomment
  | ok made =>
    cases made with
    | none =>
      rw [hcomment] at h
      cases h
      exact .postNothing channel d copy outcome hcomment
    | some comment =>
      rw [hcomment] at h
      cases h
      exact .post channel d copy outcome comment hcomment

theorem marking_move {result : ActionResult}
    (h : requestStep cfg rows nextId q (.marking channel d copy result) .mark = some eff) :
    RequestMove cfg rows nextId q (.marking channel d copy result) .mark eff := by
  unfold requestStep at h
  dsimp only at h
  cases hrow : rows d with
  | none =>
    rw [hrow] at h
    cases h
    exact .markMissing channel d copy result hrow
  | some row =>
    rw [hrow] at h
    cases h
    exact .mark channel d copy result row hrow

theorem rejecting_move {held : Option ReviewDecision}
    (h : requestStep cfg rows nextId q (.rejecting channel d held) .reject = some eff) :
    RequestMove cfg rows nextId q (.rejecting channel d held) .reject eff := by
  cases h
  cases hnew : (rows d).bind (·.reject) with
  | none => exact .rejectLost channel d held hnew
  | some new =>
    obtain ⟨row, hrow, hreject⟩ := Option.bind_eq_some_iff.mp hnew
    exact .rejectWon channel d held row new hrow hreject

theorem loadingRejected_move {won : Bool}
    (h : requestStep cfg rows nextId q (.loadingRejected d won) .load = some eff) :
    RequestMove cfg rows nextId q (.loadingRejected d won) .load eff := by
  unfold requestStep at h
  dsimp only at h
  cases hrow : rows d with
  | none =>
    rw [hrow] at h
    cases h
    exact .loadRejectedNone d won hrow
  | some row =>
    rw [hrow] at h
    cases h
    exact .loadRejected d won row hrow

theorem requeueing_move (h : requestStep cfg rows nextId q (.requeueing d) .requeue = some eff) :
    RequestMove cfg rows nextId q (.requeueing d) .requeue eff := by
  cases h
  cases hnew : (rows d).bind (·.requeue) with
  | none => exact .requeueLost d hnew
  | some new =>
    obtain ⟨row, hrow, hrequeue⟩ := Option.bind_eq_some_iff.mp hnew
    exact .requeueWon d row new hrow hrequeue

theorem sweeping_move (h : requestStep cfg rows nextId q .sweeping .select = some eff) :
    RequestMove cfg rows nextId q .sweeping .select eff := by
  unfold requestStep at h
  dsimp only at h
  cases hcopies : approvedRows rows nextId with
  | nil =>
    rw [hcopies] at h
    cases h
    exact .selectNone hcopies
  | cons copy rest =>
    rw [hcopies] at h
    cases h
    exact .select (copy :: rest) (by simp) hcopies

end

theorem requestStep_move {cfg : Settings} {rows : DecisionTable} {nextId : DecisionId}
    {q : RequestId} {pc : RequestPc} {act : RequestAct} {eff : Effect RequestPc}
    (h : requestStep cfg rows nextId q pc act = some eff) :
    RequestMove cfg rows nextId q pc act eff := by
  cases pc <;> cases act <;> try cases h
  case idle.begin.refl verb channel d => exact .begin verb channel d
  case idle.beginRequeue.refl d => exact .beginRequeue d
  case idle.beginSweep.refl => exact .beginSweep
  case looking.look => exact looking_move h
  case claiming.claim.refl => exact claiming_move rfl
  case loading.load => exact loading_move h
  case retrying.retry.refl => exact retrying_move rfl
  case handing.mark => exact handing_move h
  case posting.post => exact posting_move h
  case marking.mark => exact marking_move h
  case rejecting.reject.refl => exact rejecting_move rfl
  case loadingRejected.load => exact loadingRejected_move h
  case requeueing.requeue.refl => exact requeueing_move rfl
  case sweeping.select => exact sweeping_move h
  case swept.commit.refl copies => exact .commit copies
  case replying.reply.refl comment outcome result => exact .reply comment outcome result
  all_goals first
    | exact .crash _ fun hpc => by cases hpc
    | exact .dbError _ (fun hpc => by cases hpc) (fun _ _ _ hpc => by cases hpc)

section
variable {cfg : Settings} {s t : State}

theorem step_router {r : RouterId} {act : RouterAct} (h : step cfg s (.router r act) = some t) :
    ∃ eff, RouterMove cfg s.rows s.nextId r (s.routers r) act eff ∧ t = s.applyRouter r eff := by
  simp only [step, Option.map_eq_some_iff] at h
  obtain ⟨eff, heff, rfl⟩ := h
  exact ⟨eff, routerStep_move heff, rfl⟩

theorem step_request {q : RequestId} {act : RequestAct}
    (h : step cfg s (.request q act) = some t) :
    ∃ eff, RequestMove cfg s.rows s.nextId q (s.requests q) act eff ∧ t = s.applyRequest q eff := by
  simp only [step, Option.map_eq_some_iff] at h
  obtain ⟨eff, heff, rfl⟩ := h
  exact ⟨eff, requestStep_move heff, rfl⟩

end

section
variable (s : State) (r : RouterId) (q : RequestId) (reff : Effect RouterPc)
    (qeff : Effect RequestPc)

@[simp] theorem applyRouter_rows (d : DecisionId) :
    (s.applyRouter r reff).rows d = (reff.write d).or (s.rows d) := rfl

@[simp] theorem applyRouter_events :
    (s.applyRouter r reff).events = reff.events ++ s.events := rfl

@[simp] theorem applyRouter_requests : (s.applyRouter r reff).requests = s.requests := rfl

@[simp] theorem applyRouter_self : (s.applyRouter r reff).routers r = reff.pc := by
  simp [State.applyRouter]

theorem applyRouter_of_ne {r' : RouterId} (h : r' ≠ r) :
    (s.applyRouter r reff).routers r' = s.routers r' := by
  simp [State.applyRouter, State.apply, h]

@[simp] theorem applyRequest_rows (d : DecisionId) :
    (s.applyRequest q qeff).rows d = (qeff.write d).or (s.rows d) := rfl

@[simp] theorem applyRequest_events :
    (s.applyRequest q qeff).events = qeff.events ++ s.events := rfl

@[simp] theorem applyRequest_routers : (s.applyRequest q qeff).routers = s.routers := rfl

@[simp] theorem applyRequest_self : (s.applyRequest q qeff).requests q = qeff.pc := by
  simp [State.applyRequest]

theorem applyRequest_of_ne {q' : RequestId} (h : q' ≠ q) :
    (s.applyRequest q qeff).requests q' = s.requests q' := by
  simp [State.applyRequest, State.apply, h]

end

@[simp] theorem only_self (d : DecisionId) (row : ReviewDecision) : only d row d = some row := by
  simp [only]

theorem only_of_ne {d i : DecisionId} (row : ReviewDecision) (h : i ≠ d) :
    only d row i = none := by
  simp [only, h]

theorem only_eq_some {d i : DecisionId} {row new : ReviewDecision} :
    only d row i = some new ↔ i = d ∧ row = new := by
  simp [only]

end AutoPR.Routing
