import Mathlib.Data.Set.Card
import AutoPR.Jobs.Lease
import AutoPR.Webhook.Quota

/-! A quota is checked before the INSERT and not with it, so a window may hold as many jobs
more than the quota allows as handlers were past their check at once. What bounds it is the
sum of the rows in the window and the handlers that may still put one there: only a check
adds to it, and a check that passes has just seen how many rows there are. -/
namespace AutoPR.Webhook
open Jobs Transition

/-- The work that one ceiling is about. -/
inductive Scope where
  | repo (name : String)
  | installation (installationId : Int)
  | whole
deriving DecidableEq, Repr

def Scope.quota : Scope → Quota
  | .repo _ => .repoHourly
  | .installation _ => .installationDaily
  | .whole => .instanceDaily

def Scope.covers (repo : String) (installationId : Option Int) : Scope → Bool
  | .repo name => repo = name
  | .installation i => installationId = some i
  | .whole => true

/-- The jobs of the scope that were created in the window that starts at `x`. -/
def createdWithin (scope : Scope) (x : Nat) (jobs : JobTable) : Set JobId :=
  {j | ∃ row, jobs j = some row ∧ scope.covers row.repo row.installationId = true ∧
    x ≤ row.createdAt ∧ row.createdAt ≤ x + scope.quota.window}

/-- The handler has passed its check of the scope and may still create a row of the window. -/
def HandlerPc.landing (scope : Scope) (x now : Nat) : HandlerPc → Bool
  | .counting payload _ todo =>
      scope.covers payload.repo payload.installationId && scope.quota ∉ todo &&
        now ≤ x + scope.quota.window
  | .inserting payload true =>
      scope.covers payload.repo payload.installationId && now ≤ x + scope.quota.window
  | .stamped payload true createdAt =>
      scope.covers payload.repo payload.installationId && x ≤ createdAt &&
        createdAt ≤ x + scope.quota.window
  | _ => false

def State.landing (scope : Scope) (x : Nat) (s : State) : Set PublisherId :=
  {p | (s.handlers p).landing scope x s.jobs.now = true}

def Bounded (quotas : QuotaSettings) (c : Nat) (s : State) : Prop :=
  ∀ (scope : Scope) (limit : Nat), quotas.limit scope.quota = limit → 0 < limit → ∀ x,
    (createdWithin scope x s.jobs.jobs).encard + (s.landing scope x).encard ≤ (limit - 1 + c : Nat)

theorem countSince_encard {jobs : JobTable} {nextId : JobId} {cutoff : Nat} {repo : Option String}
    {installationId : Option Int} {created : Set JobId}
    (h : ∀ j ∈ created, j < nextId ∧ ∃ row, jobs j = some row ∧ cutoff ≤ row.createdAt ∧
      repo.all (row.repo = ·) = true ∧
      installationId.all (fun i => row.installationId = some i) = true) :
    created.encard ≤ countSince jobs nextId cutoff repo installationId := by
  unfold countSince
  rw [List.countP_eq_length_filter, ← List.toFinset_card_of_nodup (List.nodup_range.filter _),
    ← Set.encard_coe_eq_coe_finsetCard]
  apply Set.encard_le_encard
  intro j hj
  obtain ⟨hlt, row, hrow, hcutoff, hrepo, hinstallation⟩ := h j hj
  simp [hlt, hrow, hcutoff, hrepo, hinstallation]

section
variable {cfg : Settings} {quotas : QuotaSettings} {c : Nat} {scope : Scope} {x : Nat}

theorem createdWithin_le_count {jobs : JobTable} {nextId : JobId} {now : Nat} {repo : String}
    {installationId : Option Int} (hlt : ∀ j row, jobs j = some row → j < nextId)
    (hcovers : scope.covers repo installationId = true) (hnow : now ≤ x + scope.quota.window) :
    (createdWithin scope x jobs).encard ≤ scope.quota.count jobs nextId now repo installationId := by
  cases scope with
  | repo name =>
    obtain rfl : repo = name := of_decide_eq_true hcovers
    apply countSince_encard
    rintro j ⟨row, hrow, hrepo, hx, -⟩
    refine ⟨hlt j row hrow, row, hrow, ?_, hrepo, rfl⟩
    exact Nat.le_trans (Nat.sub_le_of_le_add hnow) hx
  | installation i =>
    obtain rfl : installationId = some i := of_decide_eq_true hcovers
    apply countSince_encard
    rintro j ⟨row, hrow, hinstallation, hx, -⟩
    refine ⟨hlt j row hrow, row, hrow, ?_, rfl, hinstallation⟩
    exact Nat.le_trans (Nat.sub_le_of_le_add hnow) hx
  | whole =>
    apply countSince_encard
    rintro j ⟨row, hrow, -, hx, -⟩
    refine ⟨hlt j row hrow, row, hrow, ?_, rfl, rfl⟩
    exact Nat.le_trans (Nat.sub_le_of_le_add hnow) hx

theorem mem_checks {repo : String} {installationId : Option Int}
    (hcovers : scope.covers repo installationId = true) (hon : 0 < quotas.limit scope.quota) :
    scope.quota ∈ quotas.checks installationId := by
  cases scope with
  | repo name =>
    change 0 < quotas.jobsPerRepoPerHour at hon
    simp [QuotaSettings.checks, Scope.quota, hon]
  | installation i =>
    obtain rfl : installationId = some i := of_decide_eq_true hcovers
    change 0 < quotas.jobsPerInstallationPerDay at hon
    simp [QuotaSettings.checks, Scope.quota, hon]
  | whole =>
    change 0 < quotas.jobsTotalPerDay at hon
    simp [QuotaSettings.checks, Scope.quota, hon]

theorem landing_anti {pc : HandlerPc} {now later : Nat} (hnow : now ≤ later)
    (h : pc.landing scope x later = true) : pc.landing scope x now = true := by
  cases pc with
  | counting payload _ todo =>
    simp only [HandlerPc.landing, Bool.and_eq_true, decide_eq_true_eq] at h ⊢
    exact ⟨h.1, Nat.le_trans hnow h.2⟩
  | inserting payload checked =>
    cases checked with
    | false => cases h
    | true =>
      simp only [HandlerPc.landing, Bool.and_eq_true, decide_eq_true_eq] at h ⊢
      exact ⟨h.1, Nat.le_trans hnow h.2⟩
  | stamped payload checked createdAt =>
    cases checked with
    | false => cases h
    | true => exact h
  | idle | received | known | metering | publishing | refused | failed => cases h

theorem landing_inFlight {pc : HandlerPc} {now : Nat} (hon : 0 < quotas.limit scope.quota)
    (h : pc.landing scope x now = true) : pc.inFlight quotas = true := by
  cases pc with
  | counting payload _ todo =>
    simp only [HandlerPc.landing, Bool.and_eq_true, decide_eq_true_eq] at h
    obtain ⟨⟨hcovers, hdone⟩, -⟩ := h
    simp only [HandlerPc.inFlight, decide_eq_true_eq, ne_eq]
    rintro rfl
    exact hdone (mem_checks hcovers hon)
  | inserting payload checked | stamped payload checked createdAt =>
    cases checked with
    | false => cases h
    | true =>
      simp only [HandlerPc.landing, Bool.and_eq_true, decide_eq_true_eq] at h
      have hmem : scope.quota ∈ quotas.checks payload.installationId :=
        mem_checks (by tauto) hon
      simpa [HandlerPc.inFlight] using List.ne_nil_of_mem hmem
  | idle | received | known | metering | publishing | refused | failed => cases h

theorem landing_subset_inFlight (s : State) (hon : 0 < quotas.limit scope.quota) :
    s.landing scope x ⊆ s.inFlight quotas :=
  fun _ hp => landing_inFlight hon hp

end

section
variable {cfg : Settings} {s t : Jobs.State} {a : Jobs.Action}

theorem step_nextId_eq (h : Jobs.step cfg s a = some t) (ha : ∀ p, a ≠ .publisher p .insert) :
    t.nextId = s.nextId := by
  obtain hquiet | ⟨w, act, msg, eff, -, -, -, rfl⟩ | ⟨p, act, eff, rfl, hmove, rfl⟩ :=
    Jobs.step_cases h
  · exact hquiet.nextId
  · rfl
  · generalize s.publishers p = pc at hmove
    cases hmove with
    | insertWon payload hfind => exact absurd rfl (ha p)
    | _ => rfl

theorem createdWithin_step {scope : Scope} {x : Nat} (h : Jobs.step cfg s a = some t)
    (ha : ∀ p, a ≠ .publisher p .insert) :
    createdWithin scope x t.jobs ⊆ createdWithin scope x s.jobs := by
  rintro j ⟨job, hjob, hcovers, hx⟩
  obtain hsame | ⟨-, hnext, -⟩ | ⟨row, new, hrow, hnew, hwrite⟩ := step_jobs h j
  · exact ⟨job, hsame ▸ hjob, hcovers, hx⟩
  · rw [step_nextId_eq h ha] at hnext
    exact absurd hnext (Nat.ne_of_lt (Nat.lt_succ_self _))
  · cases hnew.symm.trans hjob
    rw [hwrite.repo, hwrite.installationId] at hcovers
    rw [hwrite.createdAt] at hx
    exact ⟨row, hrow, hcovers, hx⟩

theorem dedupExists_iff (hwf : WellFormed s) {key : String} :
    dedupExists s.jobs s.nextId key = true ↔ ∃ j row, s.jobs j = some row ∧ row.dedupKey = key := by
  unfold dedupExists
  constructor
  · intro h
    obtain ⟨j, hfind⟩ := Option.isSome_iff_exists.mp h
    obtain ⟨row, hrow, hkey⟩ := findJob_eq_some hfind
    exact ⟨j, row, hrow, hkey⟩
  · rintro ⟨j, row, hrow, hkey⟩
    rw [Option.isSome_iff_ne_none]
    intro hfind
    exact findJob_eq_none hfind (hwf.jobs_lt j row hrow) hrow hkey

theorem dedupExists_step (hwf : WellFormed s) (h : Jobs.step cfg s a = some t) {key : String}
    (hkey : dedupExists s.jobs s.nextId key = true) : dedupExists t.jobs t.nextId key = true := by
  obtain ⟨j, row, hrow, hrowKey⟩ := (dedupExists_iff hwf).mp hkey
  obtain ⟨job, hjob, heq⟩ := hwf.jobs_persist h hrow
  exact (dedupExists_iff (hwf.step h)).mpr ⟨j, job, hjob, heq.trans hrowKey⟩

theorem wellFormed_at (hwf : WellFormed s) (now : Nat) : WellFormed { s with now := now } :=
  ⟨hwf.jobs_lt, hwf.stream_lt, hwf.stream_job, hwf.worker_entry, hwf.publisher_job⟩

end

def HandlerPc.call : HandlerPc → Option PRPayload
  | .inserting payload _ | .stamped payload _ _ => some payload
  | _ => none

def HandlerPc.duplicate : HandlerPc → Option PRPayload
  | .known payload | .inserting payload false | .stamped payload false _ => some payload
  | _ => none

structure Sound (cfg : Settings) (s : State) : Prop where
  wf : WellFormed s.jobs
  clock : ∀ p payload now todo, s.handlers p = .counting payload now todo → now ≤ s.jobs.now
  call : ∀ p payload, (s.handlers p).call = some payload → s.jobs.publishers p = .inserting payload
  known : ∀ p payload, (s.handlers p).duplicate = some payload →
    dedupExists s.jobs.jobs s.jobs.nextId (payload.dedupKey cfg.sha256) = true

section
variable {cfg : Settings} {quotas : QuotaSettings} {p : PublisherId}

/-- A handler leaves the pipeline alone or takes one step of its call there, maybe at an
earlier time of the clock, which it leaves alone. -/
theorem HandlerMove.jobs {jobs jobs' : Jobs.State} {pc pc' : HandlerPc} {act : HandlerAct}
    (h : HandlerMove cfg quotas jobs p pc act pc' jobs') :
    jobs' = jobs ∨ ∃ now call u,
      Jobs.step cfg { jobs with now := now } (.publisher p call) = some u ∧
        jobs' = { u with now := jobs.now } := by
  have hown : ∀ call, Jobs.step cfg jobs (.publisher p call) = some jobs' → ∃ now call u,
      Jobs.step cfg { jobs with now := now } (.publisher p call) = some u ∧
        jobs' = { u with now := jobs.now } := by
    intro call hstep
    obtain ⟨eff, -, rfl⟩ := step_publisher hstep
    exact ⟨jobs.now, call, _, hstep, rfl⟩
  cases h with
  | deliver | duplicate | fresh | readClock | refuse | pass | execute | fail => exact .inl rfl
  | ingest payload now _ hstep | ingestKnown payload _ hstep => exact .inr (hown _ hstep)
  | crash _ _ hstep => exact .inr (hown _ hstep)
  | commit payload checked createdAt u hstep => exact .inr ⟨createdAt, _, u, hstep, rfl⟩

theorem HandlerMove.now {jobs jobs' : Jobs.State} {pc pc' : HandlerPc} {act : HandlerAct}
    (h : HandlerMove cfg quotas jobs p pc act pc' jobs') : jobs'.now = jobs.now := by
  obtain rfl | ⟨now, call, u, -, rfl⟩ := h.jobs <;> rfl

theorem HandlerMove.publishers {jobs jobs' : Jobs.State} {pc pc' : HandlerPc} {act : HandlerAct}
    (h : HandlerMove cfg quotas jobs p pc act pc' jobs') {p' : PublisherId} (hp : p' ≠ p) :
    jobs'.publishers p' = jobs.publishers p' := by
  obtain rfl | ⟨now, call, u, hstep, rfl⟩ := h.jobs
  · rfl
  · exact step_publisher_of_ne (s := { jobs with now := now }) hstep fun heq =>
      hp (Option.some.inj heq).symm

theorem HandlerMove.wellFormed {jobs jobs' : Jobs.State} {pc pc' : HandlerPc} {act : HandlerAct}
    (h : HandlerMove cfg quotas jobs p pc act pc' jobs') (hwf : WellFormed jobs) :
    WellFormed jobs' := by
  obtain rfl | ⟨now, call, u, hstep, rfl⟩ := h.jobs
  · exact hwf
  · exact wellFormed_at ((wellFormed_at hwf now).step hstep) _

theorem HandlerMove.dedupExists {jobs jobs' : Jobs.State} {pc pc' : HandlerPc} {act : HandlerAct}
    (h : HandlerMove cfg quotas jobs p pc act pc' jobs') (hwf : WellFormed jobs) {key : String}
    (hkey : Webhook.dedupExists jobs.jobs jobs.nextId key = true) :
    Webhook.dedupExists jobs'.jobs jobs'.nextId key = true := by
  obtain rfl | ⟨now, call, u, hstep, rfl⟩ := h.jobs
  · exact hkey
  · exact dedupExists_step (wellFormed_at hwf now) hstep hkey

theorem HandlerMove.clock {jobs jobs' : Jobs.State} {pc pc' : HandlerPc} {act : HandlerAct}
    (h : HandlerMove cfg quotas jobs p pc act pc' jobs')
    (hold : ∀ payload now todo, pc = .counting payload now todo → now ≤ jobs.now)
    {payload : PRPayload} {now : Nat} {todo : List Quota} (hpc : pc' = .counting payload now todo) :
    now ≤ jobs.now := by
  cases h with
  | readClock payload =>
    cases hpc
    exact Nat.le_refl _
  | pass payload now quota rest =>
    cases hpc
    exact hold _ _ _ rfl
  | _ => cases hpc

theorem HandlerMove.call {jobs jobs' : Jobs.State} {pc pc' : HandlerPc} {act : HandlerAct}
    (h : HandlerMove cfg quotas jobs p pc act pc' jobs')
    (hold : ∀ payload, pc.call = some payload → jobs.publishers p = .inserting payload)
    {payload : PRPayload} (hpc : pc'.call = some payload) :
    jobs'.publishers p = .inserting payload := by
  have hingest : Jobs.step cfg jobs (.publisher p (.ingest payload)) = some jobs' →
      jobs'.publishers p = .inserting payload := by
    intro hstep
    obtain ⟨eff, hmove, rfl⟩ := step_publisher hstep
    generalize jobs.publishers p = q at hmove
    cases hmove
    exact applyPublisher_self ..
  cases h with
  | ingest payload now _ hstep | ingestKnown payload _ hstep =>
    cases hpc
    exact hingest hstep
  | execute payload checked => exact hold _ hpc
  | _ => cases hpc

theorem HandlerMove.duplicate_of {jobs jobs' : Jobs.State} {pc pc' : HandlerPc} {act : HandlerAct}
    (h : HandlerMove cfg quotas jobs p pc act pc' jobs') {payload : PRPayload}
    (hpc : pc'.duplicate = some payload) : pc.duplicate = some payload ∨
      Webhook.dedupExists jobs.jobs jobs.nextId (payload.dedupKey cfg.sha256) = true := by
  cases h with
  | duplicate payload hexists =>
    cases hpc
    exact .inr hexists
  | ingestKnown => exact .inl hpc
  | execute payload checked => cases checked <;> exact .inl hpc
  | _ => cases hpc

theorem Sound.initial : Sound cfg .initial where
  wf := .initial
  clock _ _ _ _ h := by cases h
  call _ _ h := by cases h
  known _ _ h := by cases h

theorem Sound.handler {s : State} {act : HandlerAct} {pc : HandlerPc} {jobs : Jobs.State}
    (hs : Sound cfg s) (h : HandlerMove cfg quotas s.jobs p (s.handlers p) act pc jobs) :
    Sound cfg (s.move p pc jobs) where
  wf := h.wellFormed hs.wf
  clock p' payload now todo hpc := by
    dsimp only [State.move] at hpc ⊢
    rw [h.now]
    by_cases hp : p' = p
    · subst hp
      rw [Function.update_self] at hpc
      exact h.clock (hs.clock p') hpc
    · rw [Function.update_of_ne hp] at hpc
      exact hs.clock p' payload now todo hpc
  call p' payload hpc := by
    dsimp only [State.move] at hpc ⊢
    by_cases hp : p' = p
    · subst hp
      rw [Function.update_self] at hpc
      exact h.call (hs.call p') hpc
    · rw [Function.update_of_ne hp] at hpc
      rw [h.publishers hp]
      exact hs.call p' payload hpc
  known p' payload hpc := by
    dsimp only [State.move] at hpc ⊢
    apply h.dedupExists hs.wf
    by_cases hp : p' = p
    · subst hp
      rw [Function.update_self] at hpc
      exact (h.duplicate_of hpc).elim (hs.known p' payload) id
    · rw [Function.update_of_ne hp] at hpc
      exact hs.known p' payload hpc

theorem HandlerPc.call_of_lets {pc : HandlerPc} {act : PublisherAct} (h : pc.lets act = true) :
    pc.call = none := by
  cases act <;> cases pc <;> first | rfl | cases h

theorem Sound.system {s : State} {b : Jobs.Action} {jobs : Jobs.State} (hs : Sound cfg s)
    (h : Jobs.step cfg s.jobs b = some jobs)
    (hlets : ∀ p act, b = .publisher p act → (s.handlers p).lets act = true) :
    Sound cfg { s with jobs := jobs } where
  wf := hs.wf.step h
  clock p payload now todo hpc := Nat.le_trans (hs.clock p payload now todo hpc) (step_now h)
  call p payload hpc := by
    rw [← hs.call p payload hpc]
    apply step_publisher_of_ne h
    intro hb
    cases b with
    | publisher p' act =>
      cases hb
      rw [HandlerPc.call_of_lets (hlets p act rfl)] at hpc
      cases hpc
    | tick | consume | reclaim | worker => cases hb
  known p payload hpc := dedupExists_step hs.wf h (hs.known p payload hpc)

theorem Sound.step {s t : State} {a : Action} (hs : Sound cfg s)
    (h : step cfg quotas s a = some t) : Sound cfg t := by
  obtain ⟨p, act, pc, jobs, -, hmove, rfl⟩ | ⟨b, jobs, -, hstep, hlets, rfl⟩ := step_cases h
  · exact hs.handler hmove
  · exact hs.system hstep hlets

end

section
variable {cfg : Settings} {quotas : QuotaSettings} {c : Nat} {p : PublisherId} {s : State}
  {act : HandlerAct} {pc : HandlerPc} {jobs : Jobs.State}

theorem encard_transfer {α β : Type*} {rows rows' : Set α} {handlers handlers' : Set β} {j : α}
    {p : β} (hrows : rows' ⊆ insert j rows) (hhandlers : handlers' ⊆ handlers \ {p})
    (hp : p ∈ handlers) : rows'.encard + handlers'.encard ≤ rows.encard + handlers.encard := by
  calc rows'.encard + handlers'.encard
      ≤ (insert j rows).encard + (handlers \ {p}).encard :=
        add_le_add (Set.encard_le_encard hrows) (Set.encard_le_encard hhandlers)
    _ ≤ (rows.encard + 1) + (handlers \ {p}).encard :=
        add_le_add (Set.encard_insert_le rows j) le_rfl
    _ = rows.encard + ((handlers \ {p}).encard + 1) := by rw [add_assoc, add_comm 1]
    _ = rows.encard + handlers.encard := by rw [Set.encard_sdiff_singleton_add_one hp]

theorem landing_update (scope : Scope) (x : Nat) (hnow : jobs.now = s.jobs.now)
    (hpc : pc.landing scope x s.jobs.now = true →
      (s.handlers p).landing scope x s.jobs.now = true) :
    (s.move p pc jobs).landing scope x ⊆ s.landing scope x := by
  intro p' hp'
  simp only [State.landing, State.move, Set.mem_ofPred_eq, hnow] at hp' ⊢
  by_cases hp : p' = p
  · subst hp
    rw [Function.update_self] at hp'
    exact hpc hp'
  · rwa [Function.update_of_ne hp] at hp'

theorem Bounded.checked (hs : Sound cfg s) {payload : PRPayload} {now : Nat}
    {rest : List Quota} {scope : Scope} {limit x : Nat}
    (hpc : s.handlers p = .counting payload now (scope.quota :: rest))
    (hroom : scope.quota.exhausted quotas s.jobs.jobs s.jobs.nextId now payload.repo
      payload.installationId = false)
    (hlimit : quotas.limit scope.quota = limit)
    (hcovers : scope.covers payload.repo payload.installationId = true)
    (hx : s.jobs.now ≤ x + scope.quota.window) :
    (createdWithin scope x s.jobs.jobs).encard ≤ (limit - 1 : Nat) := by
  have hnow := Nat.le_trans (hs.clock p _ _ _ hpc) hx
  have hcount : scope.quota.count s.jobs.jobs s.jobs.nextId now payload.repo
      payload.installationId ≤ limit - 1 := by
    simp only [Quota.exhausted, hlimit, decide_eq_false_iff_not] at hroom
    omega
  exact (createdWithin_le_count hs.wf.jobs_lt hcovers hnow).trans (by exact_mod_cast hcount)

theorem insert_row {u : Jobs.State} {payload : PRPayload} {createdAt : Nat}
    (hpc : s.jobs.publishers p = .inserting payload)
    (h : Jobs.step cfg { s.jobs with now := createdAt } (.publisher p .insert) = some u)
    {j : JobId} {row : PRJob} (hrow : u.jobs j = some row) :
    s.jobs.jobs j = some row ∨
      j = s.jobs.nextId ∧ row = payload.newJob cfg createdAt ∧
        Webhook.dedupExists s.jobs.jobs s.jobs.nextId (payload.dedupKey cfg.sha256) = false := by
  obtain ⟨eff, hmove, rfl⟩ := step_publisher h
  dsimp only at hmove
  rw [hpc] at hmove
  cases hmove with
  | insertLost _ i hfind => exact .inl hrow
  | insertWon _ hfind =>
    change Function.update s.jobs.jobs s.jobs.nextId (some (payload.newJob cfg createdAt)) j =
      some row at hrow
    by_cases hj : j = s.jobs.nextId
    · subst hj
      rw [Function.update_self] at hrow
      exact .inr ⟨rfl, (Option.some.inj hrow).symm, by rw [Webhook.dedupExists, hfind]; rfl⟩
    · rw [Function.update_of_ne hj] at hrow
      exact .inl hrow

theorem Bounded.commit (hs : Sound cfg s) {payload : PRPayload} {checked : Bool}
    {createdAt : Nat} {u : Jobs.State} {scope : Scope} {x : Nat}
    (hpc : s.handlers p = .stamped payload checked createdAt)
    (hstep : Jobs.step cfg { s.jobs with now := createdAt } (.publisher p .insert) = some u) :
    (createdWithin scope x u.jobs).encard +
        ((s.move p .publishing { u with now := s.jobs.now }).landing scope x).encard ≤
      (createdWithin scope x s.jobs.jobs).encard + (s.landing scope x).encard := by
  have hcall := hs.call p payload (by rw [hpc]; rfl)
  have hlanding : (s.move p .publishing { u with now := s.jobs.now }).landing scope x ⊆
      s.landing scope x \ {p} := by
    intro p' hp'
    refine ⟨landing_update scope x rfl (fun h => by cases h) hp', ?_⟩
    rintro rfl
    simp [State.landing, State.move, HandlerPc.landing] at hp'
  by_cases hland : p ∈ s.landing scope x
  · refine encard_transfer (j := s.jobs.nextId) ?_ hlanding hland
    rintro j ⟨row, hrow, hrest⟩
    obtain hold | ⟨rfl, -, -⟩ := insert_row hcall hstep hrow
    · exact Set.mem_insert_of_mem _ ⟨row, hold, hrest⟩
    · exact Set.mem_insert ..
  · refine add_le_add (Set.encard_le_encard ?_)
      (Set.encard_le_encard (hlanding.trans Set.sdiff_subset))
    rintro j ⟨row, hrow, hcovers, hx⟩
    obtain hold | ⟨-, rfl, hfresh⟩ := insert_row hcall hstep hrow
    · exact ⟨row, hold, hcovers, hx⟩
    · cases checked with
      | false =>
        have hknown := hs.known p payload (by rw [hpc]; rfl)
        rw [hfresh] at hknown
        cases hknown
      | true =>
        refine absurd ?_ hland
        change (s.handlers p).landing scope x s.jobs.now = true
        rw [hpc]
        simp only [HandlerPc.landing, Bool.and_eq_true, decide_eq_true_eq]
        exact ⟨⟨hcovers, hx.1⟩, hx.2⟩

/-- At most `c` handlers are in flight after the step. -/
def Capped (cfg : Settings) (quotas : QuotaSettings) (c : Nat) (s : State) (a : Action) : Prop :=
  ∀ t, step cfg quotas s a = some t → (t.inFlight quotas).encard ≤ c

theorem Bounded.handler (hs : Sound cfg s) (hb : Bounded quotas c s)
    (h : HandlerMove cfg quotas s.jobs p (s.handlers p) act pc jobs)
    (hcap : ((s.move p pc jobs).inFlight quotas).encard ≤ c) :
    Bounded quotas c (s.move p pc jobs) := by
  intro scope limit hlimit hpos x
  have hold := hb scope limit hlimit hpos x
  have hshrink : createdWithin scope x jobs.jobs ⊆ createdWithin scope x s.jobs.jobs →
      (pc.landing scope x s.jobs.now = true →
        (s.handlers p).landing scope x s.jobs.now = true) →
      (createdWithin scope x jobs.jobs).encard + ((s.move p pc jobs).landing scope x).encard ≤
        (limit - 1 + c : Nat) := fun hcreated hlanding =>
    (add_le_add (Set.encard_le_encard hcreated)
      (Set.encard_le_encard (landing_update scope x h.now hlanding))).trans hold
  generalize hpc : s.handlers p = before at h
  rw [hpc] at hshrink
  cases h with
  | deliver | duplicate | fresh | refuse | fail => exact hshrink (le_refl _) fun h => by cases h
  | readClock payload =>
    refine hshrink (le_refl _) fun hland => ?_
    simp only [HandlerPc.landing, Bool.and_eq_true, decide_eq_true_eq] at hland
    refine absurd (mem_checks hland.1.1 ?_) hland.1.2
    rw [hlimit]
    exact_mod_cast hpos
  | pass payload now quota rest hroom =>
    by_cases hland : scope.quota = quota ∧
        scope.covers payload.repo payload.installationId = true ∧
        s.jobs.now ≤ x + scope.quota.window
    · obtain ⟨rfl, hcovers, hx⟩ := hland
      have hon : 0 < quotas.limit scope.quota := by
        rw [hlimit]
        exact_mod_cast hpos
      rw [Nat.cast_add]
      exact add_le_add (Bounded.checked hs hpc hroom hlimit hcovers hx)
        ((Set.encard_le_encard (landing_subset_inFlight _ hon)).trans hcap)
    · refine hshrink (le_refl _) fun hland' => ?_
      simp only [HandlerPc.landing, Bool.and_eq_true, decide_eq_true_eq, List.mem_cons,
        not_or] at hland' ⊢
      exact ⟨⟨hland'.1.1, fun heq => hland ⟨heq, hland'.1.1, hland'.2⟩, hland'.1.2⟩, hland'.2⟩
  | ingest payload now _ hstep =>
    refine hshrink (createdWithin_step hstep fun _ heq => by cases heq) fun hland => ?_
    simpa [HandlerPc.landing] using hland
  | ingestKnown payload _ hstep | crash _ _ hstep =>
    exact hshrink (createdWithin_step hstep fun _ heq => by cases heq) fun h => by cases h
  | execute payload checked =>
    refine hshrink (le_refl _) fun hland => ?_
    cases checked with
    | false => cases hland
    | true =>
      simp only [HandlerPc.landing, Bool.and_eq_true, decide_eq_true_eq] at hland ⊢
      exact ⟨hland.1.1, hland.2⟩
  | commit payload checked createdAt u hstep => exact (Bounded.commit hs hpc hstep).trans hold

theorem Bounded.system {b : Jobs.Action} (hb : Bounded quotas c s)
    (h : Jobs.step cfg s.jobs b = some jobs)
    (hlets : ∀ p act, b = .publisher p act → (s.handlers p).lets act = true) :
    Bounded quotas c { s with jobs := jobs } := by
  intro scope limit hlimit hpos x
  refine (add_le_add (Set.encard_le_encard (createdWithin_step h ?_))
    (Set.encard_le_encard ?_)).trans (hb scope limit hlimit hpos x)
  · rintro p rfl
    have hinsert := hlets p .insert rfl
    cases hinsert
  · intro p hp
    exact landing_anti (step_now h) hp

theorem Bounded.initial : Bounded quotas c .initial := by
  intro scope limit hlimit hpos x
  have hcreated : createdWithin scope x State.initial.jobs.jobs = ∅ :=
    Set.eq_empty_of_forall_notMem fun j hj => by
      obtain ⟨row, hrow, -⟩ := hj
      cases hrow
  have hlanding : State.initial.landing scope x = ∅ :=
    Set.eq_empty_of_forall_notMem fun p hp => by cases hp
  simp [hcreated, hlanding]

theorem Bounded.step {t : State} {a : Action} (hs : Sound cfg s) (hb : Bounded quotas c s)
    (hcap : Capped cfg quotas c s a) (h : Webhook.step cfg quotas s a = some t) :
    Bounded quotas c t := by
  have ht := hcap t h
  obtain ⟨p, act, pc, jobs, -, hmove, rfl⟩ | ⟨b, jobs, -, hstep, hlets, rfl⟩ := step_cases h
  · exact hb.handler hs hmove ht
  · exact hb.system hstep hlets

end

def HandlerPc.pastQuota : HandlerPc → Bool
  | .known _ | .inserting _ _ | .stamped _ _ _ | .publishing | .failed => true
  | .idle | .received _ | .metering _ | .counting _ _ _ | .refused _ => false

/-- A statement of the delivery that this handler serves. -/
def OwnStep (s : State) (p : PublisherId) : Action → Prop
  | .handler p' _ => p' = p
  | .system (.publisher p' _) => p' = p ∧ s.handlers p ≠ .idle
  | .system _ => False

section
variable {cfg : Settings} {quotas : QuotaSettings} {p : PublisherId} {s t : State} {a : Action}

theorem HandlerMove.past {jobs jobs' : Jobs.State} {pc pc' : HandlerPc} {act : HandlerAct}
    (h : HandlerMove cfg quotas jobs p pc act pc' jobs') (hpc : pc.pastQuota = true) :
    pc'.pastQuota = true := by
  cases h with
  | deliver | duplicate | fresh | readClock | refuse | pass => cases hpc
  | ingest | ingestKnown | execute | commit | crash | fail => rfl

theorem HandlerMove.writes {jobs jobs' : Jobs.State} {pc pc' : HandlerPc} {act : HandlerAct}
    (h : HandlerMove cfg quotas jobs p pc act pc' jobs') :
    jobs' = jobs ∨ pc'.pastQuota = true := by
  cases h with
  | deliver | duplicate | fresh | readClock | refuse | pass => exact .inl rfl
  | ingest | ingestKnown | execute | commit | crash | fail => exact .inr rfl

theorem past_step (h : step cfg quotas s a = some t) (hpast : (s.handlers p).pastQuota = true) :
    (t.handlers p).pastQuota = true := by
  obtain ⟨p', act, pc, jobs, -, hmove, rfl⟩ | ⟨b, jobs, -, -, -, rfl⟩ := step_cases h
  · dsimp only [State.move]
    by_cases hp : p = p'
    · subst hp
      rw [Function.update_self]
      exact hmove.past hpast
    · rwa [Function.update_of_ne hp]
  · exact hpast

theorem past_not_refused {u : State} (h : (webhooks cfg quotas).Run anyStep s u)
    (hpast : (s.handlers p).pastQuota = true) (quota : Quota) : u.handlers p ≠ .refused quota := by
  have hu : (u.handlers p).pastQuota = true :=
    Run.invariant (I := fun v => (v.handlers p).pastQuota = true) (J := fun _ => True)
      (fun _ _ => trivial) (fun _ _ _ _ _ hstep => past_step hstep) h hpast
  intro heq
  rw [heq] at hu
  cases hu

theorem own_step_writes (hown : OwnStep s p a) (h : step cfg quotas s a = some t) :
    t.jobs = s.jobs ∨ (t.handlers p).pastQuota = true := by
  obtain ⟨p', act, pc, jobs, rfl, hmove, rfl⟩ | ⟨b, jobs, rfl, -, hlets, rfl⟩ := step_cases h
  · cases hown
    refine hmove.writes.imp id fun hpast => ?_
    dsimp only [State.move]
    rwa [Function.update_self]
  · cases b with
    | publisher p' act =>
      obtain ⟨rfl, hidle⟩ := hown
      have hpc := hlets p' act rfl
      cases hh : s.handlers p' with
      | idle => exact absurd hh hidle
      | publishing => exact .inr rfl
      | received | known | metering | counting | inserting | stamped | refused | failed =>
        rw [hh] at hpc
        cases act <;> cases hpc
    | tick | consume | reclaim | worker => cases hown

theorem duplicate_step (hs : Sound cfg s) {payload : PRPayload}
    (h : step cfg quotas s a = some t)
    (hpc : s.handlers p = .received payload ∧
        dedupExists s.jobs.jobs s.jobs.nextId (payload.dedupKey cfg.sha256) = true ∨
      (s.handlers p).pastQuota = true) :
    t.handlers p = .received payload ∧
        dedupExists t.jobs.jobs t.jobs.nextId (payload.dedupKey cfg.sha256) = true ∨
      (t.handlers p).pastQuota = true := by
  obtain ⟨hreceived, hkey⟩ | hpast := hpc
  · obtain ⟨p', act, pc, jobs, -, hmove, rfl⟩ | ⟨b, jobs, -, hstep, -, rfl⟩ := step_cases h
    · dsimp only [State.move]
      by_cases hp : p = p'
      · subst hp
        rw [Function.update_self]
        rw [hreceived] at hmove
        cases hmove with
        | fresh _ hnone =>
          rw [hkey] at hnone
          cases hnone
        | duplicate | crash | fail => exact .inr rfl
      · rw [Function.update_of_ne hp]
        exact .inl ⟨hreceived, hmove.dedupExists hs.wf hkey⟩
    · exact .inl ⟨hreceived, dedupExists_step hs.wf hstep hkey⟩
  · exact .inr (past_step h hpast)

theorem duplicate_not_refused {u : State} (hs : Sound cfg s) {payload : PRPayload}
    (h : (webhooks cfg quotas).Run anyStep s u) (hpc : s.handlers p = .received payload)
    (hkey : dedupExists s.jobs.jobs s.jobs.nextId (payload.dedupKey cfg.sha256) = true)
    (quota : Quota) : u.handlers p ≠ .refused quota := by
  have hsound : ∀ v, (webhooks cfg quotas).Run anyStep s v → Sound cfg v := fun v hv =>
    Run.invariant (J := fun _ => True) (fun _ _ => trivial)
      (fun _ _ _ _ _ hstep hs => hs.step hstep) hv hs
  have hu := Run.invariant hsound (fun _ _ _ hs _ hstep => duplicate_step hs hstep) h
    (.inl ⟨hpc, hkey⟩)
  intro heq
  obtain ⟨hreceived, -⟩ | hpast := hu
  · rw [hreceived] at heq
    cases heq
  · rw [heq] at hpast
    cases hpast

end

theorem Reachable.sound {cfg : Settings} {quotas : QuotaSettings} {ok : State → Action → Prop}
    {s : State} (h : (webhooks cfg quotas).Reachable ok s) : Sound cfg s :=
  Reachable.invariant (J := fun _ => True) (fun _ _ => trivial) Sound.initial
    (fun _ _ _ _ _ hstep hs => hs.step hstep) h

theorem Reachable.bounded {cfg : Settings} {quotas : QuotaSettings} {c : Nat} {s : State}
    (h : (webhooks cfg quotas).Reachable (Capped cfg quotas c) s) : Bounded quotas c s :=
  Reachable.invariant (fun _ => Reachable.sound) Bounded.initial
    (fun _ _ _ hs hok hstep hb => hb.step hs hok hstep) h

/-- The quotas in every state of a run that never has more than `c` handlers between their
check and their commit. -/
theorem quota_bound {cfg : Settings} {quotas : QuotaSettings} {c : Nat} {s : State}
    (h : (webhooks cfg quotas).Reachable (Capped cfg quotas c) s) :
    (∀ (scope : Scope) (limit : Nat), quotas.limit scope.quota = limit → 0 < limit → ∀ x,
      (createdWithin scope x s.jobs.jobs).encard ≤ (limit - 1 + c : Nat)) ∧
    (∀ p a t u quota, OwnStep s p a → step cfg quotas s a = some t →
      (webhooks cfg quotas).Run anyStep t u → u.handlers p = .refused quota →
        t.jobs.jobs = s.jobs.jobs ∧ t.jobs.stream = s.jobs.stream) ∧
    ∀ p payload u quota, s.handlers p = .received payload →
      dedupExists s.jobs.jobs s.jobs.nextId (payload.dedupKey cfg.sha256) = true →
      (webhooks cfg quotas).Run anyStep s u → u.handlers p ≠ .refused quota := by
  refine ⟨?_, ?_, ?_⟩
  · intro scope limit hlimit hpos x
    exact le_self_add.trans (Reachable.bounded h scope limit hlimit hpos x)
  · intro p a t u quota hown hstep hrun hrefused
    obtain hsame | hpast := own_step_writes hown hstep
    · rw [hsame]
      exact ⟨rfl, rfl⟩
    · exact absurd hrefused (past_not_refused hrun hpast quota)
  · intro p payload u quota hpc hkey hrun
    exact duplicate_not_refused (Reachable.sound h) hrun hpc hkey quota

def Action.handler? : Action → Option PublisherId
  | .handler p _ => some p
  | .system _ => none

theorem step_handler_of_ne {cfg : Settings} {quotas : QuotaSettings} {s t : State} {a : Action}
    (h : step cfg quotas s a = some t) {p : PublisherId} (hp : a.handler? ≠ some p) :
    t.handlers p = s.handlers p := by
  obtain ⟨p', act, pc, jobs, rfl, -, rfl⟩ | ⟨b, jobs, -, -, -, rfl⟩ := step_cases h
  · exact Function.update_of_ne (fun heq => hp (congrArg some heq.symm)) _ _
  · rfl

theorem inFlight_le {quotas : QuotaSettings} {s : State} {n : Nat}
    (h : ∀ p, n ≤ p → s.handlers p = .idle) : (s.inFlight quotas).encard ≤ n := by
  have hsub : s.inFlight quotas ⊆ (Finset.range n : Set PublisherId) := by
    intro p hp
    rw [Finset.coe_range, Set.mem_Iio]
    by_contra hn
    change (s.handlers p).inFlight quotas = true at hp
    rw [h p (Nat.le_of_not_lt hn)] at hp
    cases hp
  refine (Set.encard_le_encard hsub).trans ?_
  rw [Set.encard_coe_eq_coe_finsetCard, Finset.card_range]

theorem step_idle_handlers {cfg : Settings} {quotas : QuotaSettings} {s t : State} {a : Action}
    {n : Nat} (h : step cfg quotas s a = some t) (ha : a.handler?.all (· < n) = true)
    (hs : ∀ p, n ≤ p → s.handlers p = .idle) : ∀ p, n ≤ p → t.handlers p = .idle := by
  intro p hp
  rw [step_handler_of_ne h, hs p hp]
  intro heq
  rw [heq, Option.all_some, decide_eq_true_eq] at ha
  exact absurd hp (Nat.not_le_of_lt ha)

theorem admits_of_handlers {cfg : Settings} {quotas : QuotaSettings} {n : Nat} {acts : List Action}
    {s : State} (hacts : ∀ a ∈ acts, a.handler?.all (· < n) = true)
    (hs : ∀ p, n ≤ p → s.handlers p = .idle) :
    (webhooks cfg quotas).Admits (Capped cfg quotas n) acts s := by
  induction acts generalizing s with
  | nil => trivial
  | cons a rest ih =>
    have hnext : ∀ t, step cfg quotas s a = some t → ∀ p, n ≤ p → t.handlers p = .idle :=
      fun t hstep => step_idle_handlers hstep (hacts a List.mem_cons_self) hs
    refine ⟨fun t hstep => inFlight_le (hnext t hstep), ?_⟩
    cases hstep : (webhooks cfg quotas).step s a with
    | none => trivial
    | some t =>
      exact ih (fun b hb => hacts b (List.mem_cons_of_mem a hb)) (hnext t hstep)

def QuotaSettings.one : QuotaSettings := { jobsPerRepoPerHour := 1 }

/-- Both have read that there is no job yet when the first of them commits. -/
def racingRun : List Action :=
  [.handler 0 (.deliver .sample), .handler 1 (.deliver { PRPayload.sample with prNumber := 8 }),
    .handler 0 .dedupExists, .handler 1 .dedupExists, .handler 0 .readClock, .handler 1 .readClock,
    .handler 0 .count, .handler 1 .count, .handler 0 .ingest, .handler 1 .ingest,
    .handler 0 .execute, .handler 0 .commit, .handler 1 .execute, .handler 1 .commit]

/-- Two jobs in an hour that has room for one. -/
def raced : State := (webhooks .small .one).after racingRun (by decide)

theorem quota_bound_raced :
    (createdWithin (.repo "acme/api") 0 raced.jobs.jobs).encard ≤ (1 - 1 + 2 : Nat) :=
  (quota_bound (c := 2) (Reachable.after (by decide)
    (admits_of_handlers (by decide) fun _ _ => rfl))).1 (.repo "acme/api") 1 rfl (by decide) 0

example : raced.jobs.nextId = 2 := by decide

end AutoPR.Webhook
