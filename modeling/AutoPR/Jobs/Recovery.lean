import AutoPR.Jobs.Outbox
import AutoPR.Jobs.Settlement

/-! What a restart makes good. Where no call dies inside its window and no entry is acknowledged
out of turn, one sweep and one surviving worker finish every job that was ever accepted. -/
namespace AutoPR.Jobs
open UnitOfWork Transition Liveness

/-- Neither of the two ways in which work is lost. -/
def lossless (cfg : Settings) (s : State) (a : Action) : Bool :=
  crashOutsideWindow s a && ackSafe cfg s a

def PublisherAct.sweeps : PublisherAct → Bool
  | .reconcile | .next | .claim | .refresh | .publish _ .ok | .confirm => true
  | _ => false

/-- One sweep that runs to its end. -/
def Sweeps (cfg : Settings) (s t : State) : Prop :=
  ∃ (p : PublisherId) (acts : List PublisherAct) (count : Nat), s.publishers p = .idle ∧
    (∀ act ∈ acts, act.sweeps = true) ∧
    (pipeline cfg).exec (acts.map (.publisher p)) s = some t ∧ t.publishers p = .swept count

/-- The publisher has taken these jobs off PENDING, and no attempt of any. -/
structure TakenUp (p : PublisherId) (todo : List JobId) (s t : State) : Prop where
  others : ∀ q, q ≠ p → t.publishers q = s.publishers q
  row : ∀ j row, s.jobs j = some row → ∃ job, t.jobs j = some job ∧
    job.attempts = row.attempts ∧ (job.status = .pending → row.status = .pending ∧ j ∉ todo)

section
variable {cfg : Settings} {s t u : State} {p : PublisherId} {i j : JobId} {todo rest : List JobId}
  {row : PRJob} {count : Nat}

theorem TakenUp.trans (h : TakenUp p todo s t) (h' : TakenUp p rest t u) :
    TakenUp p (todo ++ rest) s u where
  others q hq := (h'.others q hq).trans (h.others q hq)
  row j row hrow := by
    obtain ⟨job, hjob, hattempts, hpending⟩ := h.row j row hrow
    obtain ⟨last, hlast, hattempts', hpending'⟩ := h'.row j job hjob
    refine ⟨last, hlast, hattempts'.trans hattempts, fun hst => ?_⟩
    obtain ⟨hst', hrest⟩ := hpending' hst
    obtain ⟨hst'', htodo⟩ := hpending hst'
    exact ⟨hst'', fun hmem => (List.mem_append.mp hmem).elim htodo hrest⟩

theorem exec_publisher {act : PublisherAct} {rest : List PublisherAct} {pc : PublisherPc}
    (eff : PublisherEffect) (hpc : s.publishers p = pc)
    (hstep : publisherStep cfg s.now s.jobs s.nextId s.nextEntry p pc act = some eff) :
    (pipeline cfg).exec ((act :: rest).map (.publisher p)) s =
      (pipeline cfg).exec (rest.map (.publisher p)) (s.applyPublisher p eff) := by
  have hnext : (pipeline cfg).step s (.publisher p act) = some (s.applyPublisher p eff) := by
    change step cfg s (.publisher p act) = _
    subst hpc
    simp only [step, hstep, Option.map_some]
  simp only [List.map_cons, System.exec, hnext, Option.bind_some]

theorem sweep_publishes (hpc : s.publishers p = .sweeping (i :: rest) count)
    (hrow : s.jobs i = some row) (hpending : row.status = .pending) :
    ∃ t, (pipeline cfg).exec
      ([.next, .claim, .refresh, .publish "" .ok, .confirm].map (.publisher p)) s = some t ∧
      t.publishers p = .sweeping rest (count + 1) ∧ TakenUp p [i] s t := by
  let job : PRJob := { row with status := .queued, updatedAt := s.now }
  have hclaim : row.claimPublish s.now = some job :=
    PRJob.claimPublish_eq_some.mpr ⟨hpending, rfl⟩
  rw [exec_publisher { pc := .claiming i (.reconcile rest count) } hpc rfl]
  rw [exec_publisher { pc := .refreshing i (.reconcile rest count), write := some (i, job) }
    (applyPublisher_self ..) (by simp [publisherStep, State.applyPublisher, hrow, hclaim])]
  rw [exec_publisher { pc := .publishing i job (.reconcile rest count) }
    (applyPublisher_self ..) (by simp [publisherStep, State.applyPublisher])]
  rw [exec_publisher _ (applyPublisher_self ..) rfl]
  rw [exec_publisher _ (applyPublisher_self ..) rfl]
  refine ⟨_, rfl, applyPublisher_self .., ?_, ?_⟩
  · intro q hq
    simp only [applyPublisher_of_ne _ _ _ hq]
  · intro j old hold
    by_cases hj : j = i
    · subst hj
      cases hrow.symm.trans hold
      simp [State.applyPublisher, PRJob.confirm, job]
    · refine ⟨old, ?_, rfl, fun hst => ⟨hst, by simpa using hj⟩⟩
      simp [State.applyPublisher, Table.write_of_ne _ _ hj, hold]

theorem sweep_passes (hpc : s.publishers p = .sweeping (i :: rest) count)
    (hrow : s.jobs i = some row) (hpending : row.status ≠ .pending) :
    ∃ t, (pipeline cfg).exec ([.next, .claim].map (.publisher p)) s = some t ∧
      t.publishers p = .sweeping rest count ∧ TakenUp p [i] s t := by
  have hclaim : row.claimPublish s.now = none := if_neg hpending
  rw [exec_publisher { pc := .claiming i (.reconcile rest count) } hpc rfl]
  rw [exec_publisher { pc := .sweeping rest count } (applyPublisher_self ..)
    (by simp [publisherStep, State.applyPublisher, hrow, hclaim, Caller.resume])]
  refine ⟨_, rfl, applyPublisher_self .., ?_, ?_⟩
  · intro q hq
    simp only [applyPublisher_of_ne _ _ _ hq]
  · intro j old hold
    refine ⟨old, hold, rfl, fun hst => ⟨hst, ?_⟩⟩
    rintro hmem
    obtain rfl := List.mem_singleton.mp hmem
    cases hrow.symm.trans hold
    exact hpending hst

theorem sweep_ends (hpc : s.publishers p = .sweeping todo count)
    (hrows : ∀ i ∈ todo, ∃ row, s.jobs i = some row) :
    ∃ (acts : List PublisherAct) (t : State) (count' : Nat), (∀ act ∈ acts, act.sweeps = true) ∧
      (pipeline cfg).exec (acts.map (.publisher p)) s = some t ∧
      t.publishers p = .swept count' ∧ TakenUp p todo s t := by
  induction todo generalizing s count with
  | nil =>
    refine ⟨[.next], s.applyPublisher p { pc := .swept count }, count,
      by simp [PublisherAct.sweeps], ?_, applyPublisher_self .., ?_, ?_⟩
    · rw [exec_publisher { pc := .swept count } hpc rfl]
      rfl
    · intro q hq
      exact applyPublisher_of_ne _ _ _ hq
    · exact fun j row hrow => ⟨row, hrow, rfl, fun hst => ⟨hst, List.not_mem_nil⟩⟩
  | cons i rest ih =>
    obtain ⟨row, hrow⟩ := hrows i List.mem_cons_self
    have hfirst : ∃ (acts : List PublisherAct) (u : State) (n : Nat),
        (∀ act ∈ acts, act.sweeps = true) ∧
        (pipeline cfg).exec (acts.map (.publisher p)) s = some u ∧
        u.publishers p = .sweeping rest n ∧ TakenUp p [i] s u := by
      by_cases hpending : row.status = .pending
      · obtain ⟨u, hu⟩ := sweep_publishes hpc hrow hpending
        exact ⟨_, u, _, by simp [PublisherAct.sweeps], hu⟩
      · obtain ⟨u, hu⟩ := sweep_passes hpc hrow hpending
        exact ⟨_, u, _, by simp [PublisherAct.sweeps], hu⟩
    obtain ⟨acts, u, n, hacts, hexec, hu, htaken⟩ := hfirst
    have hrest : ∀ i' ∈ rest, ∃ row, u.jobs i' = some row := by
      intro i' hi'
      obtain ⟨row', hrow'⟩ := hrows i' (List.mem_cons_of_mem i hi')
      obtain ⟨job, hjob, -⟩ := htaken.row i' row' hrow'
      exact ⟨job, hjob⟩
    obtain ⟨acts', t, n', hacts', hexec', ht, htaken'⟩ := ih hu hrest
    refine ⟨acts ++ acts', t, n', ?_, ?_, ht, htaken.trans htaken'⟩
    · exact fun act hact => (List.mem_append.mp hact).elim (hacts act) (hacts' act)
    · rw [List.map_append, System.exec_append, hexec, Option.bind_some]
      exact hexec'

theorem sweep_exists (hpc : s.publishers p = .idle) :
    ∃ (acts : List PublisherAct) (t : State) (count : Nat), (∀ act ∈ acts, act.sweeps = true) ∧
      (pipeline cfg).exec (acts.map (.publisher p)) s = some t ∧
      t.publishers p = .swept count ∧ TakenUp p (pendingJobs s.jobs s.nextId) s t := by
  let u := s.applyPublisher p { pc := .sweeping (pendingJobs s.jobs s.nextId) 0 }
  have hstart : TakenUp p [] s u :=
    ⟨fun q hq => applyPublisher_of_ne _ _ _ hq,
      fun j row hrow => ⟨row, hrow, rfl, fun hst => ⟨hst, List.not_mem_nil⟩⟩⟩
  have hrows : ∀ i ∈ pendingJobs s.jobs s.nextId, ∃ row, u.jobs i = some row := by
    intro i hi
    obtain ⟨-, row, hrow, -⟩ := mem_pendingJobs.mp hi
    exact ⟨row, hrow⟩
  obtain ⟨acts, t, count, hacts, hexec, ht, htaken⟩ := sweep_ends (applyPublisher_self ..) hrows
  exact ⟨.reconcile :: acts, t, count, List.forall_mem_cons.mpr ⟨rfl, hacts⟩,
    (exec_publisher _ hpc rfl).trans hexec, ht, hstart.trans htaken⟩

theorem idle_publisher {ok : State → Action → Prop} (h : (pipeline cfg).Reachable ok s) :
    ∃ p, s.publishers p = .idle := by
  have hidle : ∃ n, ∀ p, n ≤ p → s.publishers p = .idle := by
    refine Reachable.invariant (I := fun u => ∃ n, ∀ p, n ≤ p → u.publishers p = .idle)
      (J := fun _ => True) (fun _ _ => trivial) ⟨0, fun _ _ => rfl⟩ ?_ h
    rintro u a v - - hstep ⟨n, hn⟩
    refine ⟨max n (a.publisher?.elim 0 (· + 1)), fun p hp => ?_⟩
    rw [step_publisher_of_ne hstep, hn p (Nat.le_trans (Nat.le_max_left _ _) hp)]
    intro heq
    have hlt := Nat.le_trans (Nat.le_max_right _ _) hp
    rw [heq, Option.elim_some] at hlt
    exact absurd hlt (Nat.not_succ_le_self p)
  obtain ⟨n, hn⟩ := hidle
  exact ⟨n, hn n (Nat.le_refl n)⟩

theorem sweeps_lossless {act : PublisherAct} (h : act.sweeps = true) :
    lossless cfg s (.publisher p act) = true := by
  cases act <;> first | rfl | cases h

theorem admits_sweeps {acts : List PublisherAct} (h : ∀ act ∈ acts, act.sweeps = true) :
    (pipeline cfg).Admits (fun s a => lossless cfg s a) (acts.map (.publisher p)) s := by
  induction acts generalizing s with
  | nil => trivial
  | cons act rest ih =>
    refine ⟨sweeps_lossless (h act List.mem_cons_self), ?_⟩
    cases (pipeline cfg).step s (.publisher p act) with
    | none => trivial
    | some t => exact ih fun b hb => h b (List.mem_cons_of_mem act hb)

theorem Reachable.outstanding (h : (pipeline cfg).Reachable (fun s a => lossless cfg s a) s)
    (hrest : ∀ p, (s.publishers p).midCall = false) (hrow : s.jobs j = some row)
    (hopen : row.status.terminal = false) (hswept : row.status ≠ .pending) :
    ∃ e, s.Outstanding j e := by
  have hok : ∀ u a, lossless cfg u a = true →
      crashOutsideWindow u a = true ∧ ackSafe cfg u a = true :=
    fun _ _ hu => (Bool.and_eq_true _ _).mp hu
  have hhand := Reachable.inHand (Run.mono h fun u a hu => (hok u a hu).1)
  obtain hpending | hstream | ⟨p, hp⟩ := hhand j row hrow
  · exact absurd hpending hswept
  · obtain ⟨e, entry, hentry, hj⟩ := (onStream_iff (Reachable.wellFormed h)).mp hstream
    have hretained := Reachable.retained (Run.mono h fun u a hu => (hok u a hu).2)
    exact hretained.outstanding hrow hopen hentry hj
  · exact absurd (stake_midCall (hrest p)) hp

end

/-- Every job that was ever accepted is finished, in every run whose crashes stay outside the
window and whose acknowledgements are in turn, by one sweep and by surviving workers that handle the
job's entry one after the other, each when the leases before it have passed, whatever becomes of
their handlers. -/
theorem accepted_settles {cfg : Settings} {s : State}
    (h : (pipeline cfg).Reachable (fun s a => lossless cfg s a) s)
    (hrest : ∀ p, (s.publishers p).midCall = false) :
    ∃ t, Sweeps cfg s t ∧ ∀ j row, s.jobs j = some row → ∃ e,
      Within (Redelivers cfg e) (State.settled · j) (cfg.maxAttempts - row.attempts + 1) t := by
  obtain ⟨p, hp⟩ := idle_publisher h
  obtain ⟨acts, t, count, hacts, hexec, ht, htaken⟩ := @sweep_exists cfg s p hp
  have hreach : (pipeline cfg).Reachable (fun s a => lossless cfg s a) t :=
    Reachable.run h (Run.of_exec hexec (admits_sweeps hacts))
  have hrest' : ∀ q, (t.publishers q).midCall = false := by
    intro q
    by_cases hq : q = p
    · subst hq
      rw [ht]
      rfl
    · rw [htaken.others q hq]
      exact hrest q
  refine ⟨t, ⟨p, acts, count, hp, hacts, hexec, ht⟩, fun j row hrow => ?_⟩
  obtain ⟨job, hjob, hattempts, hpending⟩ := htaken.row j row hrow
  cases hopen : job.status.terminal with
  | true => exact ⟨0, .now ⟨job, hjob, hopen⟩⟩
  | false =>
    have hswept : job.status ≠ .pending := by
      intro hst
      obtain ⟨hold, hmem⟩ := hpending hst
      have hlt := (Reachable.wellFormed h).jobs_lt j row hrow
      exact hmem (mem_pendingJobs.mpr ⟨hlt, row, hrow, hold⟩)
    obtain ⟨e, hout⟩ := Reachable.outstanding hreach hrest' hjob hopen hswept
    have hs : Unfinished cfg j e t := ⟨Run.mono hreach fun _ _ _ => trivial, hout, job, hjob⟩
    have hleft := hs.settles
    rw [State.left, hjob, Option.elim_some, hattempts] at hleft
    exact ⟨e, hleft⟩

/-- The process dies after the commit of its INSERT. -/
def insertedRun : List Action := [.ingest .sample, .insert, .crash].map (.publisher 0)

theorem accepted_settles_inserted :
    ∃ t, Sweeps .small ((pipeline .small).after insertedRun (by decide)) t ∧ ∃ e,
      Within (Redelivers .small e) (State.settled · 0) 3 t := by
  obtain ⟨t, hsweeps, hsettles⟩ := @accepted_settles .small
    ((pipeline .small).after insertedRun (by decide)) (Reachable.after (by decide) (by decide))
    (after_rest [0] (by decide) (by decide))
  exact ⟨t, hsweeps, hsettles 0 _ (Option.some_get (by decide)).symm⟩

end AutoPR.Jobs
