import Mathlib.Algebra.Order.BigOperators.Group.Finset
import AutoPR.Jobs.Starts
import AutoPR.Pipeline.Terminates
import AutoPR.Webhook.QuotaBound

/-! What a window of a quota can cost: how often the handlers of its jobs are started, and how often
one start asks the model. -/
namespace AutoPR.Webhook
open Jobs Transition Pipeline Workflow

/-- The nodes that ask the model, once each. -/
def asksModel : Node → Bool
  | .codeReviewer | .testGenerator | .ciMonitor | .fixAgent => true
  | .fixVerifier | .router => false

theorem rounds_asked (r : ℕ) : (rounds r).countP asksModel = r := by
  induction r with
  | zero => rfl
  | succ r ih =>
    have hround : [Node.fixAgent, .fixVerifier].countP asksModel = 1 := rfl
    rw [rounds, List.countP_append, ih, hround]

section
variable {cfg : PipelineSettings} {n : Node} {visited : List Node}

theorem PrPlace.asked (h : PrPlace (.due n) visited) : (visited ++ [n]).countP asksModel ≤ 2 := by
  cases h <;> decide

theorem CiPlace.asked {maxFix attempts : ℤ} (h : CiPlace maxFix attempts (.due n) visited) :
    ((visited ++ [n]).countP asksModel : ℤ) ≤ 1 + max 1 maxFix := by
  cases h with
  | monitor hattempts =>
    change (1 : ℤ) ≤ _
    omega
  | fix r hroom hattempts =>
    simp [List.countP_append, List.countP_cons, rounds_asked, asksModel]
    omega
  | verify r hroom hattempts =>
    simp [List.countP_append, List.countP_cons, rounds_asked, asksModel]
    omega
  | route r hr =>
    simp [List.countP_append, List.countP_cons, rounds_asked, asksModel]
    omega

theorem jobWalk_asked (job : PRJob) (files : List ChangedFile) (snapshot : Snapshot)
    (answers : ℕ → Answer) (k : ℕ) :
    ((jobWalk cfg job files snapshot answers k).visited.countP asksModel : ℤ) ≤
      1 + max 1 cfg.maxFixAttempts := by
  apply Graph.walk_visited (P := fun visited => (visited.countP asksModel : ℤ) ≤ _)
  · change (0 : ℤ) ≤ _
    omega
  · intro k n hdue
    cases hjob : isCiJob job with
    | false =>
      have hplace := (@jobWalk_onPrTrack cfg job files snapshot answers hjob k).place
      unfold jobWalk at hplace
      rw [hdue] at hplace
      have hasked := PrPlace.asked hplace
      omega
    | true =>
      have hplace := (@jobWalk_onCiTrack cfg job files snapshot answers hjob k).place
      unfold jobWalk at hplace
      rw [hdue] at hplace
      exact CiPlace.asked hplace

end

theorem countP_le_sum {α ι : Type*} {l : List α} {p : α → Bool} {q : ι → α → Bool} {J : Finset ι}
    (h : ∀ e ∈ l, p e = true → ∃ i ∈ J, q i e = true) : l.countP p ≤ ∑ i ∈ J, l.countP (q i) := by
  induction l with
  | nil => exact Nat.zero_le _
  | cons e rest ih =>
    obtain ⟨he, hrest⟩ := List.forall_mem_cons.mp h
    have hfirst : (if p e = true then 1 else 0) ≤ ∑ i ∈ J, if q i e = true then 1 else 0 := by
      split
      · rename_i hp
        obtain ⟨i, hi, hq⟩ := he hp
        calc 1 = if q i e = true then 1 else 0 := (if_pos hq).symm
          _ ≤ _ := Finset.single_le_sum (fun j _ => Nat.zero_le (if q j e = true then 1 else 0)) hi
      · exact Nat.zero_le _
    simp only [List.countP_cons, Finset.sum_add_distrib]
    exact Nat.add_le_add (ih hrest) hfirst

/-- The start of a job that was created in the window. -/
def startsIn (scope : Scope) (x : Nat) (jobs : JobTable) : Event → Bool
  | .started j _ => (jobs j).any fun row => scope.covers row.repo row.installationId &&
      (decide (x ≤ row.createdAt) && decide (row.createdAt ≤ x + scope.quota.window))
  | _ => false

def State.startsIn (s : State) (scope : Scope) (x : Nat) : Nat :=
  s.jobs.events.countP (Webhook.startsIn scope x s.jobs.jobs)

/-- Never more than `n` handlings at a time are between the reading of a job and its claim. -/
def Staffed (cfg : Settings) (quotas : QuotaSettings) (n : Nat) (s : State) (a : Action) : Prop :=
  ∀ t, step cfg quotas s a = some t → t.jobs.undecided.encard ≤ n

section
variable {cfg : Settings} {quotas : QuotaSettings} {s t : State} {a : Action} {n : Nat}

theorem counted_at {u : Jobs.State} (h : Counted cfg u) (now : Nat) :
    Counted cfg { u with now := now } := ⟨h.attempts_eq, h.starts_none, h.escalating_le⟩

theorem rationed_at {u : Jobs.State} (h : Rationed cfg n u) (now : Nat) :
    Rationed cfg n { u with now := now } := ⟨h.undecided, h.starts⟩

theorem Rationed.webhooks (hs : Sound cfg s) (hcount : Counted cfg s.jobs)
    (hration : Rationed cfg n s.jobs) (h : step cfg quotas s a = some t)
    (hstaff : t.jobs.undecided.encard ≤ n) : Counted cfg t.jobs ∧ Rationed cfg n t.jobs := by
  obtain ⟨p, act, pc, jobs, -, hmove, rfl⟩ | ⟨b, jobs, -, hstep, -, rfl⟩ := step_cases h
  · obtain rfl | ⟨now, call, u, hstep, rfl⟩ := hmove.jobs
    · exact ⟨hcount, hration⟩
    · have hwf := wellFormed_at hs.wf now
      exact ⟨counted_at ((counted_at hcount now).step hwf hstep) _,
        rationed_at ((rationed_at hration now).step (counted_at hcount now) hstep hstaff) _⟩
  · exact ⟨hcount.step hs.wf hstep, hration.step hcount hstep hstaff⟩

theorem Reachable.rationed (h : (webhooks cfg quotas).Reachable (Staffed cfg quotas n) s) :
    Counted cfg s.jobs ∧ Rationed cfg n s.jobs :=
  Reachable.invariant (I := fun u => Counted cfg u.jobs ∧ Rationed cfg n u.jobs)
    (fun _ => Reachable.sound) ⟨.initial cfg, .initial⟩
    (fun _ _ _ hs hok hstep hu => Rationed.webhooks hs hu.1 hu.2 hstep (hok _ hstep)) h

end

/-- The handler of a job is started at most once for each attempt that it has, and once more for
each further handling that may have read the job before it was used up. So with every quota that is
on, the jobs created in one window of it cost a limited number of starts, whatever fails, is
delivered again or taken over; and a start asks the model a limited number of times. -/
theorem spend_ceiling {cfg : Settings} {quotas : QuotaSettings} {c n : Nat} {s : State}
    (h : (webhooks cfg quotas).Reachable
      (fun u a => Capped cfg quotas c u a ∧ Staffed cfg quotas n u a) s) :
    (∀ j, s.jobs.starts j ≤ cfg.maxAttempts - 1 + n) ∧
    (∀ (scope : Scope) (limit : Nat), quotas.limit scope.quota = limit → 0 < limit → ∀ x,
      s.startsIn scope x ≤ (limit - 1 + c) * (cfg.maxAttempts - 1 + n)) ∧
    ∀ (pcfg : PipelineSettings) job files snapshot answers k,
      ((jobWalk pcfg job files snapshot answers k).visited.countP asksModel : ℤ) ≤
        1 + max 1 pcfg.maxFixAttempts := by
  have hration := (Reachable.rationed (Run.mono h fun _ _ hok => hok.2)).2
  refine ⟨hration.starts_le, fun scope limit hlimit hpos x => ?_,
    fun pcfg job files snapshot answers k => jobWalk_asked job files snapshot answers k⟩
  have hcreated : (createdWithin scope x s.jobs.jobs).encard ≤ (limit - 1 + c : Nat) :=
    le_self_add.trans
      (Reachable.bounded (Run.mono h fun _ _ hok => hok.1) scope limit hlimit hpos x)
  have hfinite := Set.finite_of_encard_le_coe hcreated
  have hcard : hfinite.toFinset.card ≤ limit - 1 + c := by
    rw [hfinite.encard_eq_coe_toFinset_card] at hcreated
    exact Nat.cast_le.mp hcreated
  have hcover : ∀ e ∈ s.jobs.events, startsIn scope x s.jobs.jobs e = true →
      ∃ j ∈ hfinite.toFinset, Event.starts j e = true := by
    intro e _ he
    cases e with
    | started j entry =>
      obtain ⟨row, hrow, hin⟩ := (Option.any_eq_true _ _).mp he
      simp only [Bool.and_eq_true, decide_eq_true_eq] at hin
      exact ⟨j, hfinite.mem_toFinset.mpr ⟨row, hrow, hin.1, hin.2⟩, decide_eq_true rfl⟩
    | _ => cases he
  calc s.startsIn scope x
      ≤ ∑ j ∈ hfinite.toFinset, s.jobs.starts j := countP_le_sum hcover
    _ ≤ ∑ _j ∈ hfinite.toFinset, (cfg.maxAttempts - 1 + n) :=
        Finset.sum_le_sum fun j _ => hration.starts_le j
    _ = hfinite.toFinset.card * (cfg.maxAttempts - 1 + n) := Finset.sum_const_nat fun _ _ => rfl
    _ ≤ (limit - 1 + c) * (cfg.maxAttempts - 1 + n) := Nat.mul_le_mul_right _ hcard

def Action.worker? : Action → Option WorkerId
  | .system (.worker w _) | .system (.consume w) | .system (.reclaim w _) => some w
  | _ => none

theorem step_workers_of_ne {cfg : Settings} {quotas : QuotaSettings} {s t : State} {a : Action}
    {w : WorkerId} (h : step cfg quotas s a = some t) (hw : a.worker? ≠ some w) :
    t.jobs.workers w = s.jobs.workers w := by
  have hpublisher : ∀ {u v : Jobs.State} {p act}, Jobs.step cfg u (.publisher p act) = some v →
      v.workers = u.workers := by
    intro u v p act hstep
    obtain ⟨eff, -, rfl⟩ := step_publisher hstep
    rfl
  obtain ⟨p, act, pc, jobs, rfl, hmove, rfl⟩ | ⟨b, jobs, rfl, hstep, -, rfl⟩ := step_cases h
  · obtain rfl | ⟨now, call, u, hstep, rfl⟩ := hmove.jobs
    · rfl
    · exact congrFun (hpublisher hstep) w
  · cases b with
    | publisher p act => exact congrFun (hpublisher hstep) w
    | tick elapsed =>
      cases hstep
      rfl
    | worker w' act =>
      obtain ⟨msg, eff, -, -, rfl⟩ := step_worker hstep
      exact applyWorker_of_ne _ _ _ _ fun heq => hw (congrArg some heq.symm)
    | consume w' =>
      obtain ⟨entry, -, -, rfl⟩ := step_consume hstep
      exact Function.update_of_ne (fun heq => hw (congrArg some heq.symm)) _ _
    | reclaim w' e =>
      obtain ⟨entry, delivered, -, -, -, -, -, rfl⟩ := step_reclaim hstep
      exact Function.update_of_ne (fun heq => hw (congrArg some heq.symm)) _ _

/-- The undecided among the first `m` handlings. -/
def State.undecidedBelow (s : State) (m : Nat) : Finset WorkerId :=
  (Finset.range m).filter fun w => (s.jobs.workers w).intends.isSome = true

/-- Only the first `c` handlers and the first `m` handlings are in use. -/
structure InUse (c m : Nat) (s : State) : Prop where
  handlers : ∀ p, c ≤ p → s.handlers p = .idle
  workers : ∀ w, m ≤ w → s.jobs.workers w = .idle

/-- A step of one of `c` handlers and `m` handlings, which leaves at most `n` of these undecided. -/
def Manned (cfg : Settings) (quotas : QuotaSettings) (c m n : Nat) (s : State) (a : Action) :
    Prop :=
  a.handler?.all (· < c) = true ∧ a.worker?.all (· < m) = true ∧
    (step cfg quotas s a).all (fun t => (t.undecidedBelow m).card ≤ n) = true

instance (cfg : Settings) (quotas : QuotaSettings) (c m n : Nat) (s : State) (a : Action) :
    Decidable (Manned cfg quotas c m n s a) := inferInstanceAs (Decidable (_ ∧ _))

section
variable {cfg : Settings} {quotas : QuotaSettings} {c m n : Nat} {s t : State} {a : Action}

theorem Manned.inUse (h : Manned cfg quotas c m n s a) (hstep : step cfg quotas s a = some t)
    (hs : InUse c m s) : InUse c m t where
  handlers := step_idle_handlers hstep h.1 hs.handlers
  workers w hw := by
    have hworker := h.2.1
    rw [step_workers_of_ne hstep, hs.workers w hw]
    intro heq
    rw [heq, Option.all_some, decide_eq_true_eq] at hworker
    exact absurd hw (Nat.not_le_of_lt hworker)

theorem InUse.undecided_le (h : InUse c m s) :
    s.jobs.undecided.encard ≤ (s.undecidedBelow m).card := by
  have hsub : s.jobs.undecided ⊆ s.undecidedBelow m := by
    intro w hw
    change (s.jobs.workers w).intends.isSome = true at hw
    rw [State.undecidedBelow, Finset.coe_filter, Set.mem_ofPred_eq, Finset.mem_range]
    refine ⟨?_, hw⟩
    by_contra hn
    rw [h.workers w (Nat.le_of_not_lt hn)] at hw
    cases hw
  exact (Set.encard_le_encard hsub).trans (Set.encard_coe_eq_coe_finsetCard _).le

theorem Manned.admits (hs : (webhooks cfg quotas).Reachable (Manned cfg quotas c m n) s)
    (h : Manned cfg quotas c m n s a) : Capped cfg quotas c s a ∧ Staffed cfg quotas n s a := by
  have hused : InUse c m s :=
    Reachable.invariant (I := InUse c m) (J := fun _ => True) (fun _ _ => trivial)
      ⟨fun _ _ => rfl, fun _ _ => rfl⟩ (fun _ _ _ _ hok hstep hu => Manned.inUse hok hstep hu) hs
  refine ⟨fun t hstep => inFlight_le (h.inUse hstep hused).handlers, fun t hstep => ?_⟩
  have hroom := h.2.2
  rw [hstep, Option.all_some, decide_eq_true_eq] at hroom
  exact (h.inUse hstep hused).undecided_le.trans (Nat.cast_le.mpr hroom)

end

/-- The first attempt fails; then two handlings read the job before either of them claims it. -/
def attemptRun : List Jobs.Action :=
  [.select, .claim, .refresh, .publish "" .ok, .confirm].map (.publisher 0) ++
    .consume 0 :: .worker 0 .read :: failRun 0 ++
    [.tick 1000, .reclaim 1 0, .worker 1 .read, .tick 1000, .reclaim 2 0, .worker 2 .read] ++
    failRun 1 ++ failRun 2

def spendingRun : List Action :=
  [.deliver .sample, .dedupExists, .readClock, .count, .ingest, .execute, .commit].map
    (.handler 0) ++ attemptRun.map .system

/-- Three starts, with two attempts and two handlings at a time. -/
def spent : State := (webhooks .small .one).after spendingRun (by decide)

theorem spend_ceiling_spent :
    spent.jobs.starts 0 ≤ 2 - 1 + 2 ∧
    spent.startsIn (.repo "acme/api") 0 ≤ (1 - 1 + 1) * (2 - 1 + 2) := by
  have hmanned : (webhooks .small .one).Admits (Manned .small .one 1 3 2) spendingRun .initial := by
    decide
  have hspent := spend_ceiling (c := 1) (n := 2) (Reachable.after (by decide)
    (hmanned.imp .refl fun _ _ => Manned.admits))
  exact ⟨hspent.1 0, hspent.2.1 (.repo "acme/api") 1 rfl (by decide) 0⟩

example : spent.jobs.starts 0 = 3 ∧ spent.startsIn (.repo "acme/api") 0 = 3 := by decide

end AutoPR.Webhook
