import AutoPR.Jobs.NoWork
import AutoPR.Routing.NoWork
import AutoPR.Tenancy.Lifecycle

/-! A multi-tenant instance: the table of installations, the job pipeline and the
decision store. The table is asked when a delivery or a command comes in, and by nobody
who carries the work out later. -/
namespace AutoPR.Tenancy
open Python Transition

structure InstanceSettings where
  jobs : Jobs.Settings
  reviews : Routing.Settings
  /-- The database that the table of installations is kept in. -/
  integers : IntegerColumn := {}

structure Instance where
  tenants : Installations
  jobs : Jobs.State
  reviews : Routing.State
  /-- The installation whose thread a comment command comes from. -/
  threads : Routing.RequestId → Option Int

inductive InstanceAct where
  /-- A delivery that starts no work. -/
  | deliver (e : Delivery)
  /-- A pull-request delivery that is let through to `ingest`. -/
  | ingest (p : Jobs.PublisherId) (payload : PyVal) (pr : Jobs.PRPayload)
  /-- A comment command, once its author is authorised. -/
  | command (q : Routing.RequestId) (verb : Routing.Verb) (repo : String)
      (prNumber installation : Int) (d : Routing.DecisionId)
  /-- A running handler comes to its router. -/
  | run (w : Jobs.WorkerId) (r : Routing.RouterId) (added : Routing.PRState)
  | jobs (a : Jobs.Action)
  | reviews (a : Routing.Step)

/-- `job_state`, with what the agents have added to it. -/
def jobState (job : Jobs.PRJob) (added : Routing.PRState) : Routing.PRState :=
  { added with
    repo := some (.str job.repo)
    prNumber := some (.int job.prNumber)
    commitSha := some (.str job.commitSha)
    installationId := some (match job.installationId with
      | some i => .int i
      | none => .none) }

def startsIngest : Jobs.Action → Bool
  | .publisher _ (.ingest _) => true
  | _ => false

def startsReview : Routing.Step → Bool
  | .router _ (.start _ _) | .request _ (.begin _ (.comment _ _ _) _) => true
  | _ => false

namespace Instance

def initial (integers : IntegerColumn) : Instance where
  tenants := .empty integers
  jobs := .initial
  reviews := .initial .empty
  threads := fun _ => none

def step (cfg : InstanceSettings) (s : Instance) : InstanceAct → Option Instance
  | .deliver e => some { s with tenants := s.tenants.receive cfg.reviews.unicode e }
  | .ingest p payload pr =>
      match tenancyGate cfg.reviews.unicode s.tenants payload,
          installationIdFrom cfg.reviews.unicode payload with
      | (tenants, .ok true), .ok found =>
          if found = pr.installationId then
            (Jobs.step cfg.jobs s.jobs (.publisher p (.ingest pr))).map fun jobs =>
              { s with tenants := tenants, jobs := jobs }
          else none
      | _, _ => none
  | .command q verb repo prNumber installation d =>
      if (s.tenants.getActive installation).isSome then
        (Routing.step cfg.reviews s.reviews
            (.request q (.begin verb (.comment repo prNumber installation) d))).map fun reviews =>
          { s with
            reviews := reviews
            threads := Function.update s.threads q (some installation) }
      else none
  | .run w r added =>
      match s.jobs.workers w with
      | .running _ job _ =>
          (Routing.step cfg.reviews s.reviews (.router r (.start (jobState job added) true))).map
            fun reviews => { s with reviews := reviews }
      | _ => none
  | .jobs a =>
      if startsIngest a then none
      else (Jobs.step cfg.jobs s.jobs a).map fun jobs => { s with jobs := jobs }
  | .reviews a =>
      if startsReview a then none
      else (Routing.step cfg.reviews s.reviews a).map fun reviews => { s with reviews := reviews }

end Instance

def instances (cfg : InstanceSettings) : System Instance InstanceAct where
  init := .initial cfg.integers
  step := Instance.step cfg

/-- The row is suspended or deleted. -/
def Installations.barred (t : Installations) (i : Int) : Bool := (t.get i).any (!·.isActive)

section
variable {u : Unicode} {t : Installations} {e : Delivery} {i : Int}

theorem barred_standing :
    t.barred i = true ↔ Standing.of (t.get i) = .suspended ∨ Standing.of (t.get i) = .deleted := by
  unfold Installations.barred
  cases hrow : t.get i with
  | none => simp [Standing.of]
  | some row =>
    cases hs : row.suspendedAt <;> cases hd : row.deletedAt <;>
      simp [Standing.of, Installation.isActive, hs, hd]

theorem barred_inactive (h : t.barred i = true) : t.getActive i = none := by
  unfold Installations.barred at h
  unfold Installations.getActive
  cases hrow : t.get i with
  | none => rfl
  | some row =>
    rw [hrow] at h
    simpa using h

theorem receive_barred (h : (t.receive u e).barred i = true) :
    t.barred i = true ∨ (e.tenant u = some i ∧ (e.signal u = .suspend ∨ e.signal u = .delete)) := by
  by_cases htenant : e.tenant u = some i
  · obtain ⟨found, hfound, hget⟩ := receive_row (t := t) htenant
    rw [barred_standing, hget, if_pos rfl, hfound] at h
    rw [barred_standing]
    split at h
    · cases hsignal : e.signal u with
      | suspend => exact .inr ⟨htenant, .inl rfl⟩
      | delete => exact .inr ⟨htenant, .inr rfl⟩
      | enrol =>
        left
        rw [hsignal] at h
        cases hstanding : Standing.of (t.get i) <;> simp_all [Standing.hear]
      | resume =>
        left
        rw [hsignal] at h
        cases hstanding : Standing.of (t.get i) <;> simp_all [Standing.hear]
    · exact .inl h
  · left
    rw [Installations.barred, receive_other htenant] at h
    exact h

theorem gate_active {payload : PyVal} {t' : Installations}
    (hgate : tenancyGate u t payload = (t', .ok true))
    (hfrom : installationIdFrom u payload = .ok (some i)) : t'.barred i = false := by
  cases hbarred : t'.barred i with
  | false => rfl
  | true =>
    have hinactive := barred_inactive hbarred
    unfold tenancyGate at hgate
    rw [hfrom] at hgate
    simp only at hgate
    split at hgate
    · cases hgate
    · split at hgate
      · cases hgate
      · simp only [Prod.mk.injEq, Except.ok.injEq] at hgate
        obtain ⟨rfl, hactive⟩ := hgate
        rw [hinactive] at hactive
        cases hactive

end

inductive Instance.Move (cfg : InstanceSettings) (s : Instance) : InstanceAct → Instance → Prop where
  | deliver (e) :
      Move cfg s (.deliver e) { s with tenants := s.tenants.receive cfg.reviews.unicode e }
  | ingest (p payload pr jobs)
      (hactive : ∀ i, pr.installationId = some i →
        (s.tenants.receive cfg.reviews.unicode (.pullRequest payload)).barred i = false)
      (hstep : Jobs.step cfg.jobs s.jobs (.publisher p (.ingest pr)) = some jobs) :
      Move cfg s (.ingest p payload pr)
        { s with
          tenants := s.tenants.receive cfg.reviews.unicode (.pullRequest payload)
          jobs := jobs }
  | command (q verb repo n installation d reviews)
      (hactive : (s.tenants.getActive installation).isSome = true)
      (hstep : Routing.step cfg.reviews s.reviews
        (.request q (.begin verb (.comment repo n installation) d)) = some reviews) :
      Move cfg s (.command q verb repo n installation d)
        { s with
          reviews := reviews
          threads := Function.update s.threads q (some installation) }
  | run (w r added msg job stamp reviews) (hpc : s.jobs.workers w = .running msg job stamp)
      (hstep : Routing.step cfg.reviews s.reviews (.router r (.start (jobState job added) true)) =
        some reviews) :
      Move cfg s (.run w r added) { s with reviews := reviews }
  | jobs (a jobs) (hown : startsIngest a = false)
      (hstep : Jobs.step cfg.jobs s.jobs a = some jobs) :
      Move cfg s (.jobs a) { s with jobs := jobs }
  | reviews (a reviews) (hown : startsReview a = false)
      (hstep : Routing.step cfg.reviews s.reviews a = some reviews) :
      Move cfg s (.reviews a) { s with reviews := reviews }

section
variable {cfg : InstanceSettings} {s t : Instance} {a : InstanceAct}

theorem instance_move (h : s.step cfg a = some t) : s.Move cfg a t := by
  cases a with
  | deliver e =>
    cases h
    exact .deliver e
  | ingest p payload pr =>
    simp only [Instance.step] at h
    split at h
    · rename_i tenants found hgate hfrom
      split at h
      · rename_i hfound
        obtain ⟨jobs, hstep, rfl⟩ := Option.map_eq_some_iff.mp h
        have htenants : tenants = s.tenants.receive cfg.reviews.unicode (.pullRequest payload) :=
          (congrArg Prod.fst hgate).symm
        subst htenants
        exact .ingest p payload pr jobs (fun i hi => gate_active hgate (hfrom.trans (by rw [hfound, hi])))
          hstep
      · cases h
    · cases h
  | command q verb repo n installation d =>
    simp only [Instance.step] at h
    split at h
    · rename_i hactive
      obtain ⟨reviews, hstep, rfl⟩ := Option.map_eq_some_iff.mp h
      exact .command q verb repo n installation d reviews hactive hstep
    · cases h
  | run w r added =>
    simp only [Instance.step] at h
    split at h
    · rename_i msg job stamp hpc
      obtain ⟨reviews, hstep, rfl⟩ := Option.map_eq_some_iff.mp h
      exact .run w r added msg job stamp reviews hpc hstep
    · cases h
  | jobs a =>
    simp only [Instance.step] at h
    split at h
    · cases h
    · rename_i hown
      obtain ⟨jobs, hstep, rfl⟩ := Option.map_eq_some_iff.mp h
      exact .jobs a jobs (Bool.eq_false_iff.mpr hown) hstep
  | reviews a =>
    simp only [Instance.step] at h
    split at h
    · cases h
    · rename_i hown
      obtain ⟨reviews, hstep, rfl⟩ := Option.map_eq_some_iff.mp h
      exact .reviews a reviews (Bool.eq_false_iff.mpr hown) hstep

theorem Instance.Move.jobs_step (h : s.Move cfg a t) :
    t.jobs = s.jobs ∨ ∃ b, Jobs.step cfg.jobs s.jobs b = some t.jobs := by
  cases h with
  | ingest p payload pr jobs hactive hstep => exact .inr ⟨_, hstep⟩
  | jobs b jobs hown hstep => exact .inr ⟨b, hstep⟩
  | _ => exact .inl rfl

theorem Instance.Move.reviews_step (h : s.Move cfg a t) :
    t.reviews = s.reviews ∨ ∃ b, Routing.step cfg.reviews s.reviews b = some t.reviews := by
  cases h with
  | command q verb repo n installation d reviews hactive hstep => exact .inr ⟨_, hstep⟩
  | run w r added msg job stamp reviews hpc hstep => exact .inr ⟨_, hstep⟩
  | reviews b reviews hown hstep => exact .inr ⟨b, hstep⟩
  | _ => exact .inl rfl

end

section
variable {cfg : InstanceSettings} {ok : Instance → InstanceAct → Prop} {s : Instance}

theorem Reachable.pipeline (h : (instances cfg).Reachable ok s) :
    (Jobs.pipeline cfg.jobs).Reachable anyStep s.jobs := by
  refine Reachable.refine (J := fun _ => True) (fun _ _ => trivial) rfl ?_ h
  intro u a v _ _ hstep
  obtain hsame | ⟨b, hb⟩ := (instance_move hstep).jobs_step
  · exact .inl hsame
  · exact .inr ⟨b, trivial, hb⟩

theorem Reachable.store (h : (instances cfg).Reachable ok s) :
    (Routing.reviews cfg.reviews .empty).Reachable anyStep s.reviews := by
  refine Reachable.refine (J := fun _ => True) (fun _ _ => trivial) rfl ?_ h
  intro u a v _ _ hstep
  obtain hsame | ⟨b, hb⟩ := (instance_move hstep).reviews_step
  · exact .inl hsame
  · exact .inr ⟨b, trivial, hb⟩

end

namespace Instance

/-- The step starts a handler or posts a comment for the installation. -/
inductive Works (s t : Instance) (i : Int) : Prop where
  | handler (new : List Jobs.Event) (j entry row) (hnew : t.jobs.events = new ++ s.jobs.events)
      (he : .started j entry ∈ new) (hrow : s.jobs.jobs j = some row)
      (hi : row.installationId = some i)
  | decision (new : List Routing.Event) (e actor d row)
      (hnew : t.reviews.events = new ++ s.reviews.events) (he : e ∈ new)
      (habout : e.about = some (actor, some d)) (hrow : s.reviews.rows d = some row)
      (hi : row.installationId = some i)
  | job (new : List Routing.Event) (e r d run) (hnew : t.reviews.events = new ++ s.reviews.events)
      (he : e ∈ new) (habout : e.about = some (.router r, d))
      (hrun : (s.reviews.routers r).run = some run)
      (hi : run.state.installationId = some (.int i))
  | reply (new : List Routing.Event) (q comment ok)
      (hnew : t.reviews.events = new ++ s.reviews.events) (he : .replied q comment ok ∈ new)
      (hi : s.threads q = some i)

structure NoWork (u : Unicode) (i : Int) (s : Instance) : Prop where
  jobs : Jobs.NoWork i s.jobs
  reviews : Routing.NoWork u i s.reviews
  threads : ∀ q, s.threads q = some i → (s.reviews.requests q).ended = true

/-- An installation is suspended or deleted only when nothing is left to do for it, and
a finished job of a barred one stays finished. -/
def suspendsIdle (cfg : InstanceSettings) (s : Instance) : InstanceAct → Prop
  | .deliver e => ∀ i, e.tenant cfg.reviews.unicode = some i →
      e.signal cfg.reviews.unicode = .suspend ∨ e.signal cfg.reviews.unicode = .delete →
      s.NoWork cfg.reviews.unicode i
  | .jobs a => ∀ j row i, s.jobs.subject a = some j → s.jobs.jobs j = some row →
      row.installationId = some i → s.tenants.barred i = true → Jobs.finishedKept s.jobs a = true
  | _ => True

end Instance

section
variable {cfg : InstanceSettings} {s t : Instance} {a : InstanceAct} {i : Int}

theorem jobState_serves {u : Unicode} {job : Jobs.PRJob} {added : Routing.PRState}
    (h : (jobState job added).serves u i) : job.installationId = some i := by
  cases hjob : job.installationId with
  | none => simp [Routing.PRState.serves, jobState, hjob, Routing.installationIdFrom] at h
  | some j =>
    simp only [Routing.PRState.serves, jobState, hjob, Routing.installationIdFrom,
      Option.getD_some, Option.some.injEq, PyVal.int.injEq] at h
    obtain rfl | h := h
    · rfl
    · split at h
      · exact h
      · cases h

theorem Instance.NoWork.initial (u : Unicode) (integers : IntegerColumn) (i : Int) :
    (Instance.initial integers).NoWork u i where
  jobs := .initial i
  reviews := .initial u i
  threads _ h := by cases h

theorem Instance.NoWork.step (hs : s.NoWork cfg.reviews.unicode i) (hjobs : Jobs.WellFormed s.jobs)
    (hadv : Jobs.Advised s.jobs) (hreviews : Routing.WellFormed cfg.reviews s.reviews)
    (h : s.Move cfg a t) (hok : s.suspendsIdle cfg a) (hold : s.tenants.barred i = true)
    (hnew : t.tenants.barred i = true) : t.NoWork cfg.reviews.unicode i := by
  cases h with
  | deliver e => exact ⟨hs.jobs, hs.reviews, hs.threads⟩
  | ingest p payload pr jobs hactive hstep =>
    refine ⟨hs.jobs.step hjobs hadv hstep (fun j row hj => by cases hj) ?_, hs.reviews, hs.threads⟩
    intro p' payload' heq hi
    cases heq
    cases (hactive i hi).symm.trans hnew
  | command q verb repo n installation d reviews hactive hstep =>
    have hother : installation ≠ i := by
      rintro rfl
      rw [barred_inactive hold] at hactive
      cases hactive
    refine ⟨hs.jobs, ?_, ?_⟩
    · apply hs.reviews.step hreviews hstep
      · intro r state stored heq
        cases heq
      · intro q' verb' repo' n' d' heq
        cases heq
        exact hother rfl
    · intro q' hthread
      dsimp only at hthread
      by_cases hq : q' = q
      · subst hq
        rw [Function.update_self] at hthread
        exact absurd (Option.some.inj hthread) hother
      · rw [Function.update_of_ne hq] at hthread
        exact Routing.step_ended hstep (hs.threads q' hthread)
  | run w r added msg job stamp reviews hpc hstep =>
    refine ⟨hs.jobs, ?_, fun q hthread => Routing.step_ended hstep (hs.threads q hthread)⟩
    apply hs.reviews.step hreviews hstep
    · intro r' state stored heq hserves
      cases heq
      exact hs.jobs.running w msg job stamp hpc (jobState_serves hserves)
    · intro q verb repo n d heq
      cases heq
  | jobs b jobs hown hstep =>
    refine ⟨hs.jobs.step hjobs hadv hstep ?_ ?_, hs.reviews, hs.threads⟩
    · intro j row hj hrow hi
      exact hok j row i hj hrow hi hold
    · intro p payload heq
      subst heq
      cases hown
  | reviews b reviews hown hstep =>
    refine ⟨hs.jobs, ?_, fun q hthread => Routing.step_ended hstep (hs.threads q hthread)⟩
    apply hs.reviews.step hreviews hstep
    · intro r state stored heq
      subst heq
      cases hown
    · intro q verb repo n d heq
      subst heq
      cases hown

theorem move_barred (h : s.Move cfg a t) (hbarred : t.tenants.barred i = true) :
    s.tenants.barred i = true ∨ ∃ e, a = .deliver e ∧ e.tenant cfg.reviews.unicode = some i ∧
      (e.signal cfg.reviews.unicode = .suspend ∨ e.signal cfg.reviews.unicode = .delete) := by
  cases h with
  | deliver e =>
    obtain hold | ⟨htenant, hsignal⟩ := receive_barred hbarred
    · exact .inl hold
    · exact .inr ⟨e, rfl, htenant, hsignal⟩
  | ingest p payload pr jobs =>
    obtain hold | ⟨-, hsignal | hsignal⟩ := receive_barred hbarred
    · exact .inl hold
    · cases hsignal
    · cases hsignal
  | _ => exact .inl hbarred

theorem Reachable.noWork
    (h : (instances cfg).Reachable (fun u a => u.suspendsIdle cfg a) s)
    (hbarred : s.tenants.barred i = true) : s.NoWork cfg.reviews.unicode i := by
  revert hbarred
  refine Reachable.invariant (I := fun u : Instance => u.tenants.barred i = true → u.NoWork cfg.reviews.unicode i)
    (J := fun u => Jobs.WellFormed u.jobs ∧ Jobs.Advised u.jobs ∧
      Routing.WellFormed cfg.reviews u.reviews) ?_ ?_ ?_ h
  · intro u hu
    exact ⟨Jobs.Reachable.wellFormed (Reachable.pipeline hu),
      Jobs.Reachable.advised (Reachable.pipeline hu),
      Routing.Reachable.wellFormed (Reachable.store hu)⟩
  · intro _
    exact .initial _ _ i
  · rintro u a v ⟨hjobs, hadv, hreviews⟩ hok hstep hs hbarred
    have hmove := instance_move hstep
    obtain hold | ⟨e, rfl, htenant, hsignal⟩ := move_barred hmove hbarred
    · exact (hs hold).step hjobs hadv hreviews hmove hok hold hbarred
    · cases hmove
      have hidle := hok i htenant hsignal
      exact ⟨hidle.jobs, hidle.reviews, hidle.threads⟩

/-- In every run in which installations are suspended and deleted only when nothing is
left to do for them, no step works for one that is suspended or deleted. -/
theorem inactive_does_no_work
    (h : (instances cfg).Reachable (fun u a => u.suspendsIdle cfg a) s)
    (hstep : s.step cfg a = some t) (hwork : s.Works t i) : s.tenants.barred i = false := by
  cases hbarred : s.tenants.barred i with
  | false => rfl
  | true =>
    have hidle := Reachable.noWork h hbarred
    have hreviews := Routing.Reachable.wellFormed (Reachable.store h)
    have hmove := instance_move hstep
    cases hwork with
    | handler new j entry row hnew he hrow hi =>
      obtain hsame | ⟨b, hb⟩ := hmove.jobs_step
      · rw [hsame, List.self_eq_append_left] at hnew
        rw [hnew] at he
        cases he
      · exact absurd hi (hidle.jobs.no_start hb hnew he hrow)
    | decision new e actor d row hnew he habout hrow hi =>
      obtain hsame | ⟨b, hb⟩ := hmove.reviews_step
      · rw [hsame, List.self_eq_append_left] at hnew
        rw [hnew] at he
        cases he
      · exact absurd hi (hidle.reviews.no_comment hreviews hb hnew he habout hrow)
    | job new e r d run hnew he habout hrun hi => exact absurd (.inl hi) (hidle.reviews.runs r run hrun)
    | reply new q comment ok hnew he hi =>
      obtain hsame | ⟨b, hb⟩ := hmove.reviews_step
      · rw [hsame, List.self_eq_append_left] at hnew
        rw [hnew] at he
        cases he
      · cases (Routing.step_replied hb hnew he).symm.trans (hidle.threads q hi)

end

def InstanceSettings.small : InstanceSettings := { jobs := .small, reviews := .small }

def tenantEvent (action : String) (installation : Int) : Delivery :=
  .installation (.dict [("action", .str action), ("installation", .dict [("id", .int installation)])]) 0

def pullRequestOf (installation : Int) : InstanceAct :=
  .ingest 0 (.dict [("installation", .dict [("id", .int installation)])])
    { Jobs.PRPayload.sample with installationId := some installation }

def queuedWork : List InstanceAct :=
  [.deliver (tenantEvent "created" 5), pullRequestOf 5] ++
  ((Jobs.ingestRun 0).tail ++ Jobs.Action.consume 0 :: Jobs.workerRun 0 [.read, .stampClaim]).map .jobs

/-- Steps that neither suspend nor delete anybody and leave finished jobs alone. -/
def plain (s : Instance) : InstanceAct → Bool
  | .deliver e => !((e.signal .ascii = .suspend) || (e.signal .ascii = .delete))
  | .jobs a => Jobs.finishedKept s.jobs a
  | _ => true

theorem plain_suspendsIdle (s : Instance) (a : InstanceAct) (h : plain s a = true) :
    s.suspendsIdle .small a := by
  cases a with
  | deliver e =>
    intro i _ hsignal
    simp only [plain, Bool.not_eq_true', Bool.or_eq_false_iff, decide_eq_false_iff_not] at h
    exact (hsignal.elim h.1 h.2).elim
  | jobs a =>
    intro _ _ _ _ _ _ _
    exact h
  | _ => trivial

def otherSuspended : Instance :=
  { Instance.initial {} with
    tenants := Installations.empty.receive .ascii (tenantEvent "suspend" 6) }

def claimAct : InstanceAct := .jobs (.worker 0 .claim)

def claimReady : Instance :=
  (((instances .small).exec queuedWork otherSuspended).get (by decide))

theorem claimReady_reachable :
    (instances .small).Reachable (fun u a => u.suspendsIdle .small a) claimReady := by
  have hfirst : (instances .small).Reachable (fun u a => u.suspendsIdle .small a) otherSuspended :=
    Reachable.step (a := .deliver (tenantEvent "suspend" 6)) .refl
      (fun i _ _ => Instance.NoWork.initial _ _ i) rfl
  have hexec : (instances .small).exec queuedWork otherSuspended = some claimReady :=
    (Option.some_get _).symm
  have hrun : (instances .small).Run (fun u a => plain u a = true) otherSuspended claimReady :=
    Run.of_exec hexec (by decide)
  exact Reachable.run hfirst (Run.mono hrun plain_suspendsIdle)

theorem inactive_does_no_work_claimed : claimReady.tenants.barred 5 = false :=
  inactive_does_no_work (t := (claimReady.step .small claimAct).get (by decide)) claimReady_reachable
    (Option.some_get _).symm (.handler [.started 0 0] 0 0 _ rfl (by decide) rfl (by decide))

def suspendedReady : Instance :=
  (instances .small).after (queuedWork ++ [.deliver (tenantEvent "suspend" 5)]) (by decide)

/-- The worker starts the handler of a suspended tenant. -/
theorem suspended_job_started : (instances .small).Reachable anyStep suspendedReady ∧
    suspendedReady.tenants.barred 5 = true ∧
    ∃ t, suspendedReady.step .small claimAct = some t ∧ suspendedReady.Works t 5 :=
  ⟨Reachable.after _ (System.Admits.any _ _), by decide, _, (Option.some_get (by decide)).symm,
    .handler [.started 0 0] 0 0 _ rfl (by decide) rfl (by decide)⟩

end AutoPR.Tenancy
