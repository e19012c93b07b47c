import AutoPR.Routing.Gate

/-! Get-or-create of decisions. Whoever enqueues a key is given the one row of that key,
one run is told that it has created it, and that run announces it at most once. -/
namespace AutoPR.Routing
open Python UnitOfWork Transition

/-- What `enqueue_tracked` returns in this step: the id of the row that it was asked for
by its key, and whether it has created it. -/
def State.enqueued (s : State) : Step → Option (String × DecisionId × Bool)
  | .router r .select =>
      match s.routers r with
      | .selecting _ key | .reselecting _ key =>
          (findDecision s.rows s.nextId key).map fun found => (key, found.1, false)
      | _ => none
  | .router r .insert =>
      match s.routers r with
      | .inserting _ key _ =>
          if (findDecision s.rows s.nextId key).isNone then some (key, s.nextId, true) else none
      | _ => none
  | _ => none

section
variable {cfg : Settings} {s t : State} {a : Step} {d d' : DecisionId} {key : String}
  {created : Bool} {row : ReviewDecision}

theorem WellFormed.find (hwf : WellFormed cfg s) (hrow : s.rows d = some row) :
    findDecision s.rows s.nextId row.dedupKey = some (d, row) := by
  cases hfind : findDecision s.rows s.nextId row.dedupKey with
  | none => exact absurd rfl (findDecision_eq_none hfind (hwf.rows_lt d row hrow) hrow)
  | some found =>
    obtain ⟨hfound, hkey⟩ := findDecision_eq_some hfind
    have hid : found.1 = d := hwf.key_unique _ _ _ _ hfound hrow hkey
    rw [hid, hrow] at hfound
    exact congrArg some (Prod.ext hid (Option.some.inj hfound).symm)

theorem enqueued_cases (h : s.enqueued a = some (key, d, created)) :
    (created = false ∧ ∃ row, findDecision s.rows s.nextId key = some (d, row)) ∨
    (created = true ∧ d = s.nextId ∧ findDecision s.rows s.nextId key = none ∧
      ∃ r run row, a = .router r .insert ∧ s.routers r = .inserting run key row) := by
  have hfound : ∀ key', (findDecision s.rows s.nextId key').map (fun found => (key', found.1, false)) =
      some (key, d, created) →
      created = false ∧ ∃ row, findDecision s.rows s.nextId key = some (d, row) := by
    intro key' hmap
    obtain ⟨found, hfind, heq⟩ := Option.map_eq_some_iff.mp hmap
    cases heq
    exact ⟨rfl, found.2, hfind⟩
  unfold State.enqueued at h
  split at h
  · split at h
    · exact .inl (hfound _ h)
    · exact .inl (hfound _ h)
    · cases h
  · rename_i r
    split at h
    · rename_i run key' row hpc
      split at h
      · rename_i hnone
        cases h
        exact .inr ⟨rfl, rfl, Option.isNone_iff_eq_none.mp hnone, r, run, row, rfl, hpc⟩
      · cases h
    · cases h
  · cases h

theorem enqueued_known (hwf : WellFormed cfg s) (hrow : s.rows d = some row)
    (h : s.enqueued a = some (row.dedupKey, d', created)) : d' = d ∧ created = false := by
  have hfind := hwf.find hrow
  obtain ⟨hcreated, found, hfound⟩ | ⟨-, -, hnone, -⟩ := enqueued_cases h
  · cases hfind.symm.trans hfound
    exact ⟨rfl, hcreated⟩
  · cases hfind.symm.trans hnone

theorem enqueued_row (hwf : WellFormed cfg s) (hstep : step cfg s a = some t)
    (h : s.enqueued a = some (key, d, created)) : ∃ row, t.rows d = some row ∧ row.dedupKey = key := by
  obtain ⟨-, row, hfound⟩ | ⟨-, rfl, hnone, r, run, row, rfl, hpc⟩ := enqueued_cases h
  · obtain ⟨hrow, hkey⟩ := findDecision_eq_some hfound
    obtain ⟨new, hnew, hcontent⟩ := hwf.rows_persist hstep hrow
    exact ⟨new, hnew, (congrArg (·.dedupKey) hcontent).trans hkey⟩
  · obtain ⟨eff, hmove, rfl⟩ := step_router hstep
    have hkey := (newDecision_key (hwf.inserting r run key row hpc)).1
    rw [hpc] at hmove
    cases hmove with
    | insert => exact ⟨row, by simp, hkey⟩
    | insertTaken _ _ _ i old hfind => cases hfind.symm.trans hnone

theorem Run.rows_persist {ledger : Ledger} {u : State} (hs : (reviews cfg ledger).Reachable anyStep s)
    (hrun : (reviews cfg ledger).Run anyStep s u) (hrow : s.rows d = some row) :
    ∃ new, u.rows d = some new ∧ new.content = row.content := by
  refine Run.invariant (I := fun u => ∃ new, u.rows d = some new ∧ new.content = row.content)
    (J := (reviews cfg ledger).Reachable anyStep) (fun u hu => Reachable.run hs hu) ?_ hrun
    ⟨row, hrow, rfl⟩
  rintro u b v hu - hstep ⟨new, hnew, hcontent⟩
  obtain ⟨next, hnext, hsame⟩ := (Reachable.wellFormed hu).rows_persist hstep hnew
  exact ⟨next, hnext, hsame.trans hcontent⟩

end

/-- An approval notice of this decision. -/
def Event.notice (d : DecisionId) : Event → Bool
  | .notified _ i _ _ => i = d
  | _ => false

/-- The approval notices of this decision, whether or not they arrived. -/
def State.notices (s : State) (d : DecisionId) : Nat := s.events.countP (Event.notice d)

def RouterPc.announcing (d : DecisionId) : RouterPc → Bool
  | .notifying _ i _ _ => i = d
  | _ => false

structure Announced (s : State) (d : DecisionId) : Prop where
  single : ∀ r r', (s.routers r).announcing d = true → (s.routers r').announcing d = true → r = r'
  before : ∀ r, (s.routers r).announcing d = true → s.notices d = 0
  le : s.notices d ≤ 1
  unborn : s.nextId ≤ d → s.notices d = 0 ∧ ∀ r, (s.routers r).announcing d = false

section
variable {cfg : Settings} {rows : DecisionTable} {nextId d : DecisionId}

theorem RouterMove.announcing {r : RouterId} {pc : RouterPc} {act : RouterAct}
    {eff : Effect RouterPc} (h : RouterMove cfg rows nextId r pc act eff)
    (hpc : eff.pc.announcing d = true) : d = nextId ∧ eff.grow = true := by
  cases h with
  | start state stored =>
    obtain heq | ⟨result, heq⟩ | ⟨decision, -, -, ⟨key, heq⟩ | ⟨-, heq⟩⟩ :=
      startRun_cases cfg state stored <;> rw [heq] at hpc <;> cases hpc
  | found run key i row | refound run key i row =>
    obtain ⟨result, heq⟩ | ⟨-, ⟨comment, hcreated, -, heq⟩ | ⟨-, heq⟩⟩ | ⟨-, -, heq⟩ :=
      afterEnqueue_cases cfg.unicode run i row false <;> rw [heq] at hpc
    · cases hpc
    · cases hcreated
    · cases hpc
    · cases hpc
  | insert run key row =>
    obtain ⟨result, heq⟩ | ⟨-, ⟨comment, -, -, heq⟩ | ⟨-, heq⟩⟩ | ⟨-, -, heq⟩ :=
      afterEnqueue_cases cfg.unicode run nextId row true <;> rw [heq] at hpc
    · cases hpc
    · exact ⟨(of_decide_eq_true hpc).symm, rfl⟩
    · cases hpc
    · cases hpc
  | notify run i copy comment outcome =>
    obtain ⟨result, heq⟩ | ⟨-, heq⟩ := afterNotice_cases run i copy <;> rw [heq] at hpc <;> cases hpc
  | post run target outcome comment | postNothing run target outcome
  | postError run target outcome =>
    cases target <;> first | cases hpc | (cases outcome <;> cases hpc)
  | _ => cases hpc

theorem RouterMove.notices {r : RouterId} {pc : RouterPc} {act : RouterAct} {eff : Effect RouterPc}
    (h : RouterMove cfg rows nextId r pc act eff) :
    eff.events.countP (Event.notice d) = 0 ∨
    (eff.events.countP (Event.notice d) = 1 ∧ pc.announcing d = true ∧ eff.grow = false) := by
  cases h with
  | notify run i copy comment outcome =>
    by_cases hi : i = d
    · exact .inr ⟨by simp [Event.notice, hi], by simp [RouterPc.announcing, hi], rfl⟩
    · exact .inl (by simp [Event.notice, hi])
  | mark run i copy result row =>
    refine .inl (List.countP_eq_zero.mpr fun e he => ?_)
    rw [(markEvents_cases he).1]
    exact Bool.false_ne_true
  | _ => exact .inl (by simp [Event.notice])

theorem Event.notice_router {e : Event} (h : e.notice d = true) : e.router ≠ none := by
  cases e with
  | notified r i comment ok => exact Option.some_ne_none _
  | _ => cases h

end

section
variable {cfg : Settings} {s t : State} {a : Step} {act : RouterAct} {d : DecisionId}

theorem applyRouter_announcing {r i : RouterId} {eff : Effect RouterPc}
    (hmove : RouterMove cfg s.rows s.nextId r (s.routers r) act eff)
    (h : ((s.applyRouter r eff).routers i).announcing d = true) :
    (i ≠ r ∧ (s.routers i).announcing d = true) ∨ (i = r ∧ d = s.nextId ∧ eff.grow = true) := by
  by_cases hi : i = r
  · subst hi
    rw [applyRouter_self] at h
    exact .inr ⟨rfl, hmove.announcing h⟩
  · rw [applyRouter_of_ne _ _ _ hi] at h
    exact .inl ⟨hi, h⟩

theorem Announced.step_router {r : RouterId} {eff : Effect RouterPc} (hs : Announced s d)
    (hmove : RouterMove cfg s.rows s.nextId r (s.routers r) act eff) :
    Announced (s.applyRouter r eff) d := by
  have hnotices : (s.applyRouter r eff).notices d =
      eff.events.countP (Event.notice d) + s.notices d := List.countP_append
  obtain hquiet | ⟨hone, hself, hgrow⟩ := hmove.notices (d := d)
  · rw [hquiet, Nat.zero_add] at hnotices
    refine ⟨?_, ?_, hnotices ▸ hs.le, ?_⟩
    · intro i j hi hj
      obtain ⟨-, hold⟩ | ⟨rfl, hnew, -⟩ := applyRouter_announcing hmove hi
      · obtain ⟨-, hold'⟩ | ⟨-, hnew, -⟩ := applyRouter_announcing hmove hj
        · exact hs.single i j hold hold'
        · cases hold.symm.trans ((hs.unborn (Nat.le_of_eq hnew.symm)).2 i)
      · obtain ⟨-, hold'⟩ | ⟨rfl, -⟩ := applyRouter_announcing hmove hj
        · cases hold'.symm.trans ((hs.unborn (Nat.le_of_eq hnew.symm)).2 j)
        · rfl
    · intro i hi
      rw [hnotices]
      obtain ⟨-, hi⟩ | ⟨-, hnew, -⟩ := applyRouter_announcing hmove hi
      · exact hs.before i hi
      · exact (hs.unborn (Nat.le_of_eq hnew.symm)).1
    · intro hle
      have hnext : s.nextId ≤ (s.applyRouter r eff).nextId ∧
          (eff.grow = true → (s.applyRouter r eff).nextId = s.nextId + 1) := by
        cases hg : eff.grow <;> simp [State.applyRouter, State.apply, hg]
      have hunborn := hs.unborn (Nat.le_trans hnext.1 hle)
      refine ⟨hnotices.trans hunborn.1, fun i => ?_⟩
      by_contra hi
      obtain ⟨-, hi⟩ | ⟨-, hnew, hg⟩ := applyRouter_announcing hmove (Bool.not_eq_false _ ▸ hi)
      · cases hi.symm.trans (hunborn.2 i)
      · rw [hnext.2 hg, hnew] at hle
        exact Nat.not_succ_le_self _ hle
  · have hnobody : ∀ i, ((s.applyRouter r eff).routers i).announcing d ≠ true := by
      intro i hi
      obtain ⟨hne, hi⟩ | ⟨-, -, hg⟩ := applyRouter_announcing hmove hi
      · exact hne (hs.single i r hi hself)
      · cases hgrow.symm.trans hg
    rw [hone, hs.before r hself] at hnotices
    refine ⟨fun i _ hi => absurd hi (hnobody i), fun i hi => absurd hi (hnobody i),
      Nat.le_of_eq hnotices, fun hle => ?_⟩
    have hnext : (s.applyRouter r eff).nextId = s.nextId := by
      simp [State.applyRouter, State.apply, hgrow]
    rw [hnext] at hle
    cases hself.symm.trans ((hs.unborn hle).2 r)

theorem Announced.step (hs : Announced s d) (h : step cfg s a = some t) : Announced t d := by
  cases a with
  | router r act =>
    obtain ⟨eff, hmove, rfl⟩ := Routing.step_router h
    exact hs.step_router hmove
  | request q act =>
    obtain ⟨eff, hmove, rfl⟩ := step_request h
    have hnotices : (s.applyRequest q eff).notices d = s.notices d := by
      unfold State.notices
      rw [applyRequest_events, List.countP_append, List.countP_eq_zero.mpr, Nat.zero_add]
      intro e he hnotice
      exact Event.notice_router hnotice (hmove.event_router he)
    have hnext : (s.applyRequest q eff).nextId = s.nextId := by
      simp [State.applyRequest, State.apply, hmove.grow]
    exact ⟨hs.single, fun r hr => hnotices.trans (hs.before r hr), hnotices ▸ hs.le,
      fun hle => ⟨hnotices.trans (hs.unborn (hnext ▸ hle)).1, (hs.unborn (hnext ▸ hle)).2⟩⟩

end

theorem Announced.initial (ledger : Ledger) (d : DecisionId) :
    Announced (State.initial ledger) d where
  single _ _ hr := by cases hr
  before _ hr := by cases hr
  le := Nat.zero_le 1
  unborn _ := ⟨rfl, fun _ => rfl⟩

theorem Reachable.announced {cfg : Settings} {ledger : Ledger} {ok : State → Step → Prop}
    {s : State} (d : DecisionId) (h : (reviews cfg ledger).Reachable ok s) : Announced s d :=
  Reachable.invariant (I := fun u => Announced u d) (J := fun _ => True) (fun _ _ => trivial)
    (Announced.initial ledger d) (fun _ _ _ _ _ hstep hs => hs.step hstep) h

/-- In every run there is one row a key; a row keeps its content; whoever enqueues a key
finds its row and everyone later is given the same one, as not created; and a decision is
announced at most once. -/
theorem get_or_create {cfg : Settings} {ledger : Ledger} {s : State}
    (h : (reviews cfg ledger).Reachable anyStep s) :
    (∀ d d' row row', s.rows d = some row → s.rows d' = some row' →
      row.dedupKey = row'.dedupKey → d = d') ∧
    (∀ t d row, (reviews cfg ledger).Run anyStep s t → s.rows d = some row →
      ∃ new, t.rows d = some new ∧ new.content = row.content) ∧
    (∀ a t key d created, step cfg s a = some t → s.enqueued a = some (key, d, created) →
      (∃ row, t.rows d = some row ∧ row.dedupKey = key) ∧
      ∀ u b d' created', (reviews cfg ledger).Run anyStep t u →
        u.enqueued b = some (key, d', created') → d' = d ∧ created' = false) ∧
    ∀ d, s.notices d ≤ 1 := by
  have hwf := Reachable.wellFormed h
  refine ⟨hwf.key_unique, ?_, ?_, fun d => (Reachable.announced d h).le⟩
  · intro t d row hrun hrow
    exact Run.rows_persist h hrun hrow
  · intro a t key d created hstep henqueued
    obtain ⟨row, hrow, hkey⟩ := enqueued_row hwf hstep henqueued
    refine ⟨⟨row, hrow, hkey⟩, ?_⟩
    intro u b d' created' hrun hlater
    have ht : (reviews cfg ledger).Reachable anyStep t := Reachable.step h trivial hstep
    obtain ⟨new, hnew, hcontent⟩ := Run.rows_persist ht hrun hrow
    have hsame : new.dedupKey = key := (congrArg (·.dedupKey) hcontent).trans hkey
    rw [← hsame] at hlater
    exact enqueued_known (Reachable.wellFormed (Reachable.run ht hrun)) hnew hlater

def raceRun : List Step :=
  routerRun 0 [.start (.sample "high") true, .select] ++
    routerRun 1 [.start (.sample "low") true, .select] ++ routerRun 0 [.insert] ++
    routerRun 1 [.insert]

def raceState : State := (reviews .small .empty).after raceRun (by decide)

/-- The loser of the insert is given the winner's row. -/
theorem get_or_create_race :
    raceState.enqueued (.router 1 .select) =
      some ("acme/api|7|c0ffee|comment_review", 0, false) ∧
    ∀ u b d' created',
      (reviews .small .empty).Run anyStep
        ((step .small raceState (.router 1 .select)).get (by decide)) u →
      u.enqueued b = some ("acme/api|7|c0ffee|comment_review", d', created') →
      d' = 0 ∧ created' = false :=
  ⟨by decide, ((get_or_create (Reachable.after (by decide) (System.Admits.any _ _))).2.2.1
    (.router 1 .select) _ _ 0 false (Option.some_get (by decide)).symm (by decide)).2⟩

end AutoPR.Routing
