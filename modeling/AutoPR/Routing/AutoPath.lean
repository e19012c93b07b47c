import AutoPR.Routing.Refinement

/-! The auto path and the gate. It decides on a status read once, posts outside any
claim and does not remember who left a row failed, so the gate holds along the runs
in which nobody else takes the row in between. -/
namespace AutoPR.Routing
open Python UnitOfWork Transition

def Event.run : Event → Option RouterId
  | .started r _ _ => some r
  | _ => none

def Event.call : Event → Option RequestId
  | .requested q => some q
  | _ => none

namespace State

def busy (s : State) (d : DecisionId) : Bool :=
  (s.events.filterMap Event.run).any fun r => ((s.routers r).hold d).isSome

def held (s : State) (d : DecisionId) : Bool :=
  (s.events.filterMap Event.call).any fun q => ((s.requests q).hold d).isSome

def leftByAuto (s : State) (d : DecisionId) : Bool :=
  match s.history d with
  | (.failed, .auto _) :: _ => true
  | _ => false

def untaken (s : State) (d : DecisionId) (update : ReviewDecision → Option ReviewDecision) :
    Bool :=
  ((s.rows d).bind update).isNone || !s.busy d

/-- Nobody is executing the row, nothing of it has been posted, and it is not final. -/
def abandoned (s : State) (d : DecisionId) : Bool :=
  !s.busy d && !s.held d && s.accepted d = 0 && (s.rows d).all fun row => !row.status.final

/-- The steps that keep the gate of the row: an auto run takes it up again only when
an auto run left it failed and none is posting it; a human or a gated run does not
take it from a run that is posting it; an accepted post is marked; the sweep commits
only on an abandoned row. -/
def gateKept (s : State) (d : DecisionId) : Step → Bool
  | .router r act =>
      match s.routers r, act with
      | .selecting run key, .select | .reselecting run key, .select =>
          run.decision.requiresApproval ||
            match findDecision s.rows s.nextId key with
            | some (i, row) =>
                i ≠ d || row.status ≠ .failed || (s.leftByAuto d && !s.busy d)
            | none => true
      | .requeueing _ i, .requeue => i ≠ d || s.untaken d (·.requeue)
      | .marking _ i _ result, .dbError | .marking _ i _ result, .crash => i ≠ d || !result.ok
      | _, _ => true
  | .request q act =>
      match s.requests q, act with
      | .claiming _ i _, .claim => i ≠ d || s.untaken d (·.claim)
      | .retrying _ i _, .retry => i ≠ d || s.untaken d (·.retry)
      | .rejecting _ i _, .reject => i ≠ d || s.untaken d (·.reject)
      | .requeueing i, .requeue => i ≠ d || s.untaken d (·.requeue)
      | .swept copies, .commit => !(copies.any fun c => c.1 = d) || s.abandoned d
      | _, _ => true

end State

structure Begun (s : State) : Prop where
  routers : ∀ r, s.routers r ≠ .idle → r ∈ s.events.filterMap Event.run
  requests : ∀ q, s.requests q ≠ .idle → q ∈ s.events.filterMap Event.call

section
variable {cfg : Settings} {s t : State} {a : Step} {d : DecisionId}

theorem step_filterMap {β : Type} (f : Event → Option β) {b : β} (h : step cfg s a = some t)
    (hb : b ∈ s.events.filterMap f) : b ∈ t.events.filterMap f := by
  obtain ⟨e, he, hf⟩ := List.mem_filterMap.mp hb
  exact List.mem_filterMap.mpr ⟨e, step_events_mono h he, hf⟩

theorem Begun.step (hs : Begun s) (h : step cfg s a = some t) : Begun t where
  routers r hr := by
    by_cases hidle : s.routers r = .idle
    · obtain hsame | ⟨act, eff, rfl, hmove, rfl⟩ := step_routers h r
      · exact absurd (hsame.trans hidle) hr
      · rw [hidle] at hmove
        cases hmove with
        | start state stored => simp [Event.run]
        | dbError _ result hne => exact absurd rfl hne
        | crash _ hne => exact absurd rfl hne
    · exact step_filterMap Event.run h (hs.routers r hidle)
  requests q hq := by
    by_cases hidle : s.requests q = .idle
    · obtain hsame | ⟨act, eff, rfl, hmove, rfl⟩ := step_requests h q
      · exact absurd (hsame.trans hidle) hq
      · rw [hidle] at hmove
        cases hmove with
        | begin | beginRequeue | beginSweep => simp [Event.call]
        | dbError _ hne => exact absurd rfl hne
        | crash _ hne => exact absurd rfl hne
    · exact step_filterMap Event.call h (hs.requests q hidle)

theorem Reachable.begun {cfg : Settings} {ledger : Ledger} {ok : State → Step → Prop} {s : State}
    (h : (reviews cfg ledger).Reachable ok s) : Begun s :=
  Reachable.invariant (J := fun _ => True) (fun _ _ => trivial)
    ⟨fun _ hne => absurd rfl hne, fun _ hne => absurd rfl hne⟩
    (fun _ _ _ _ _ hstep hs => hs.step hstep) h

theorem Begun.free (hs : Begun s) (hbusy : s.busy d = false) : (s.life d).Free := by
  intro r
  show (s.routers r).hold d = none
  by_cases hidle : s.routers r = .idle
  · rw [hidle]
    rfl
  · have hnone := List.any_eq_false.mp hbusy r (hs.routers r hidle)
    simpa using hnone

theorem Begun.unheld (hs : Begun s) (hbusy : s.busy d = false) (hheld : s.held d = false) :
    ∀ o, (s.life d).hold o = none := by
  intro o
  cases o with
  | router r => exact hs.free hbusy r
  | request q =>
    show (s.requests q).hold d = none
    by_cases hidle : s.requests q = .idle
    · rw [hidle]
      rfl
    · have hnone := List.any_eq_false.mp hheld q (hs.requests q hidle)
      simpa using hnone

theorem RouterPc.hold_accepted {pc : RouterPc} (h : pc.hold d = some .accepted) :
    ∃ run copy result, pc = .marking run d copy result ∧ result.ok = true := by
  cases pc with
  | posting run target =>
    cases target with
    | none => cases h
    | some found =>
      simp only [RouterPc.hold] at h
      split at h <;> cases h
  | marking run i copy result =>
    simp only [RouterPc.hold] at h
    split at h
    · rename_i hi
      subst hi
      split at h
      · rename_i hok
        exact ⟨run, copy, result, rfl, hok⟩
      · split at h <;> cases h
    · cases h
  | _ => cases h

theorem untaken_free (hs : Begun s) {update : ReviewDecision → Option ReviewDecision}
    (hwon : ((s.rows d).bind update).isSome) (h : s.untaken d update = true) :
    (s.life d).Free := by
  apply hs.free
  have hnone : ((s.rows d).bind update).isNone = false := by simpa using hwon
  simpa [State.untaken, hnone] using h

theorem leftByAuto_head (h : s.leftByAuto d = true) :
    ∃ i, (s.life d).history.head? = some (.failed, .auto i) := by
  unfold State.leftByAuto at h
  split at h
  · rename_i i rest heq
    exact ⟨i, by simp [State.life, heq]⟩
  · cases h

theorem State.Enacts.kept (hs : Begun s) {act : Life.Act} (h : s.Enacts d a act)
    (hok : s.gateKept d a = true) : (s.life d).Kept act := by
  cases h with
  | create | autoPost | autoMark | post | mark | finish => trivial
  | pickUp r run key row hpc hfind hauto hst =>
    have hkept : s.leftByAuto d = true ∧ s.busy d = false := by
      obtain hpc | hpc := hpc <;> simpa [State.gateKept, hpc, hfind, hauto, hst] using hok
    exact ⟨hs.free hkept.2, leftByAuto_head hkept.1⟩
  | reopen r run hpc hwon => exact untaken_free hs hwon (by simpa [State.gateKept, hpc] using hok)
  | autoEnd r act hlost =>
    intro hhold
    obtain ⟨run, copy, result, hpc, haccepted⟩ := RouterPc.hold_accepted hhold
    obtain rfl | rfl := hlost hhold <;> simp [State.gateKept, hpc, haccepted] at hok
  | claim q channel copy hpc hwon =>
    exact untaken_free hs hwon (by simpa [State.gateKept, hpc] using hok)
  | retry q channel copy hpc hwon =>
    exact untaken_free hs hwon (by simpa [State.gateKept, hpc] using hok)
  | reject q channel copy hpc hwon =>
    exact untaken_free hs hwon (by simpa [State.gateKept, hpc] using hok)
  | requeue q hpc hwon => exact untaken_free hs hwon (by simpa [State.gateKept, hpc] using hok)
  | sweep q copies hpc hmem =>
    have hany : (copies.any fun c => c.1 = d) = true := by
      obtain ⟨c, hc, rfl⟩ := List.mem_map.mp hmem
      exact List.any_eq_true.mpr ⟨c, hc, by simp⟩
    have habandoned : s.abandoned d = true := by
      simpa [State.gateKept, hpc, hany] using hok
    simp only [State.abandoned, Bool.and_eq_true, Bool.not_eq_true', decide_eq_true_eq] at habandoned
    obtain ⟨⟨⟨hbusy, hheld⟩, hzero⟩, hopen⟩ := habandoned
    refine ⟨hs.unheld hbusy hheld, hzero, ?_⟩
    intro st hst
    obtain ⟨row, hrow, rfl⟩ := Option.map_eq_some_iff.mp hst
    simpa [hrow] using hopen

end

theorem initial_life {ledger : Ledger} {d : DecisionId} (hd : ledger.nextId ≤ d) :
    (State.initial ledger).life d = {} := by
  have hnone : ledger.rows d = none := by
    cases hrow : ledger.rows d with
    | none => rfl
    | some row => exact absurd (ledger.rows_lt d row hrow) (Nat.not_lt.mpr hd)
  unfold State.life State.history State.accepted
  congr 1
  · exact congrArg (Option.map _) hnone
  · funext o
    cases o <;> rfl

theorem Reachable.life {cfg : Settings} {ledger : Ledger} {ok : State → Step → Prop}
    {kept : Life → Life.Act → Prop} {s : State} {d : DecisionId} (hd : ledger.nextId ≤ d)
    (hkept : ∀ u a act, Begun u → ok u a → u.Enacts d a act → kept (u.life d) act)
    (h : (reviews cfg ledger).Reachable ok s) : lives.Reachable kept (s.life d) := by
  have hstep : ∀ u a v, (reviews cfg ledger).Reachable ok u → ok u a →
      (reviews cfg ledger).step u a = some v →
      v.life d = u.life d ∨
        ∃ act, kept (u.life d) act ∧ lives.step (u.life d) act = some (v.life d) := by
    intro u a v hu hok hstep
    have hturn := step_turn (Reachable.wellFormed hu) (Reachable.gated hu) (Reachable.inHand hu)
      hd hstep
    obtain hsame | ⟨act, henacts, hact⟩ := hturn
    · exact .inl hsame
    · exact .inr ⟨act, hkept u a act (Reachable.begun hu) hok henacts, hact⟩
  exact Reachable.refine (f := fun u : State => u.life d) (fun _ hu => hu) (initial_life hd) hstep h

theorem Reachable.gateKept {cfg : Settings} {ledger : Ledger} {s : State} {d : DecisionId}
    (hd : ledger.nextId ≤ d) (h : (reviews cfg ledger).Reachable (fun s a => s.gateKept d a) s) :
    (s.life d).Owned :=
  Life.Reachable.owned (Reachable.life hd (fun _ _ _ hbegun hok henacts => henacts.kept hbegun hok) h)

theorem final_absorbing {cfg : Settings} {ledger : Ledger} {s t : State} {d : DecisionId}
    (hd : ledger.nextId ≤ d) (h : (reviews cfg ledger).Reachable (fun s a => s.gateKept d a) s)
    (hrun : (reviews cfg ledger).Run (fun s a => s.gateKept d a) s t) {row : ReviewDecision}
    (hrow : s.rows d = some row) (hfinal : row.status.final = true) :
    ∃ new, t.rows d = some new ∧ new.status = row.status := by
  have hstatus : (t.life d).status = some row.status := by
    refine Run.invariant (I := fun u => (u.life d).status = some row.status)
      (J := (reviews cfg ledger).Reachable (fun s a => s.gateKept d a))
      (fun u hu => Reachable.run h hu) ?_ hrun (by simp [State.life, hrow])
    intro u a v hu hok hstep hst
    have hturn := step_turn (Reachable.wellFormed hu) (Reachable.gated hu) (Reachable.inHand hu) hd
      hstep
    obtain hsame | ⟨act, henacts, hact⟩ := hturn
    · rw [hsame]
      exact hst
    · exact (Reachable.gateKept hd hu).final (henacts.kept (Reachable.begun hu) hok) hact hst hfinal
  obtain ⟨new, hnew, hst⟩ := Option.map_eq_some_iff.mp hstatus
  exact ⟨new, hnew, hst⟩

/-- In every run that keeps the gate of a row, the auto path posts the row only when it
is pending or failed by the hand of an auto run; executed and rejected are absorbing;
GitHub accepts at most one post of the row; and the row is the only one of its key. -/
theorem auto_path_gated {cfg : Settings} {ledger : Ledger} {s : State} {d : DecisionId}
    (hd : ledger.nextId ≤ d) (h : (reviews cfg ledger).Reachable (fun s a => s.gateKept d a) s) :
    (∀ r run copy, s.routers r = .posting run (some (d, copy)) → ∃ row, s.rows d = some row ∧
      (row.status = .pending ∨ row.status = .failed) ∧
      ∃ i, (s.history d).head? = some (row.status, .auto i)) ∧
    (∀ t row, (reviews cfg ledger).Run (fun s a => s.gateKept d a) s t → s.rows d = some row →
      row.status.final = true → ∃ new, t.rows d = some new ∧ new.status = row.status) ∧
    s.accepted d ≤ 1 ∧
    ∀ i row other, s.rows d = some row → s.rows i = some other →
      other.dedupKey = row.dedupKey → i = d := by
  have howned := Reachable.gateKept hd h
  refine ⟨?_, ?_, howned.accepted_le, ?_⟩
  · intro r run copy hpc
    have hhold : (s.life d).hold (.router r) = some .taken := by
      simp [State.life, State.hold, hpc, RouterPc.hold]
    obtain ⟨st, i, hst, htakeable, hhead⟩ := (howned.holder hhold).2.2
    obtain ⟨row, hrow, rfl⟩ := Option.map_eq_some_iff.mp hst
    refine ⟨row, hrow, ?_, i, hhead⟩
    cases hrow : row.status <;> simp [hrow, DecisionStatus.takeable] at htakeable ⊢
  · intro t row hrun hrow hfinal
    exact final_absorbing hd h hrun hrow hfinal
  · intro i row other hrow hother hkey
    exact (Reachable.wellFormed h).key_unique i d other row hother hrow hkey

def retryRun : List Step :=
  routerRun 0 [.start (.sample "low") true, .select, .insert, .post (.answered refused), .mark] ++
    routerRun 1 [.start (.sample "low") true, .select]

def retryState : State := (reviews .small .empty).after retryRun (by decide)

theorem auto_path_gated_retry :
    ∃ row, retryState.rows 0 = some row ∧ (row.status = .pending ∨ row.status = .failed) ∧
      ∃ i, (retryState.history 0).head? = some (row.status, .auto i) :=
  (auto_path_gated (Nat.zero_le _) (Reachable.after (by decide) (by decide))).1 1 _ _ rfl

/-- A risky review is queued, its approval fails, and a redelivery is scored low. -/
def overrideRun : List Step :=
  routerRun 0 [.start (.sample "high") true, .select, .insert] ++
    requestRun 0 [.begin .approve .ops 0, .claim, .load, .post (.answered refused), .mark] ++
    routerRun 1 [.start (.sample "low") true, .select]

def overrideState : State := (reviews .small .empty).after overrideRun (by decide)

/-- The auto path posts a row that a human-approved attempt left failed. -/
theorem human_failure_reposted :
    (reviews .small .empty).Reachable anyStep overrideState ∧
      (∃ run copy, overrideState.routers 1 = .posting run (some (0, copy))) ∧
      (overrideState.rows 0).map (·.status) = some .failed ∧
      overrideState.history 0 =
        [(.failed, .human 0), (.approved, .human 0), (.pending, .gated 0)] ∧
      (step .small overrideState (.router 1 (.post (.answered posted)))).map (·.accepted 0) =
        some 1 :=
  ⟨Reachable.after _ (System.Admits.any _ _), ⟨_, _, rfl⟩, by decide, by decide, by decide⟩

end AutoPR.Routing
