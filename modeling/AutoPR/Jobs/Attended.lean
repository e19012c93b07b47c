import AutoPR.Jobs.Lease

/-! Times and deliveries in every reachable state: nothing is dated later than the clock, the
group's cursor stands between what has been delivered and what has not, and there are always
handlings to give an entry to. -/
namespace AutoPR.Jobs
open UnitOfWork Transition

/-- No time on record lies in the future, the cursor parts the entries that have been
delivered from the others, and there are handlings that have not begun. -/
structure Attended (s : State) : Prop where
  row : ∀ j row, s.jobs j = some row → row.updatedAt ≤ s.now
  stamp : ∀ w stamp, (s.workers w).stamp = some stamp → stamp ≤ s.now
  delivery : ∀ e entry d, s.stream e = some entry → entry.deliveredAt = some d → d ≤ s.now
  handed : ∀ e entry, s.stream e = some entry → (entry.deliveredAt.isSome ↔ e < s.cursor)
  present : ∀ e, e < s.nextEntry → ∃ entry, s.stream e = some entry
  behind : s.cursor ≤ s.nextEntry
  idle : ∃ n, ∀ w, n ≤ w → s.workers w = .idle

theorem Attended.initial : Attended State.initial where
  row _ _ h := by cases h
  stamp _ _ h := by cases h
  delivery _ _ _ h := by cases h
  handed _ _ h := by cases h
  present e h := absurd h (Nat.not_lt_zero e)
  behind := Nat.le_refl _
  idle := ⟨0, fun _ _ => rfl⟩

section
variable {cfg : Settings} {s t : State} {a : Action}

theorem WorkerMove.dated {now : Nat} {row : Option PRJob} {pc : WorkerPc} {act : WorkerAct}
    {eff : WorkerEffect} {job : PRJob} (h : WorkerMove cfg now row pc act eff)
    (hw : eff.write = some job) :
    ∃ old, row = some old ∧
      (job.updatedAt = old.updatedAt ∨ job.updatedAt = now ∨ pc.stamp = some job.updatedAt) := by
  cases h <;> simp only [reduceCtorEq, Option.some.injEq] at hw
  case escalate msg copy old hrow =>
    subst hw
    exact ⟨old, hrow, (PRJob.flush_updatedAt ..).imp id .inl⟩
  case claimWon msg copy stamp old new hrow hclaim =>
    refine ⟨old, hrow, .inr (.inr ?_)⟩
    rw [← hw, (PRJob.claim_eq_some.mp hclaim).2]
    rfl
  case succeed msg copy stamp old summary hrow =>
    subst hw
    exact ⟨old, hrow, (PRJob.flush_updatedAt ..).imp id .inl⟩
  case release msg copy stamp exc =>
    obtain ⟨old, hrow, hnew⟩ := Option.bind_eq_some_iff.mp hw
    refine ⟨old, hrow, .inr (.inl ?_)⟩
    rw [(PRJob.release_eq_some.mp hnew).2]
  case recordError msg copy exc cause =>
    obtain ⟨old, hrow, rfl⟩ := Option.map_eq_some_iff.mp hw
    exact ⟨old, hrow, (PRJob.flush_updatedAt ..).imp id .inl⟩

theorem PublisherMove.dated {now : Nat} {jobs : JobTable} {nextId j : JobId} {nextEntry : EntryId}
    {p : PublisherId} {pc : PublisherPc} {act : PublisherAct} {eff : PublisherEffect} {job : PRJob}
    (h : PublisherMove cfg now jobs nextId nextEntry p pc act eff) (hw : eff.write = some (j, job)) :
    ∃ old, jobs j = some old ∧ (job.updatedAt = old.updatedAt ∨ job.updatedAt = now) := by
  obtain ⟨old, hold, hwrite⟩ := h.write hw
  cases h <;> simp only [reduceCtorEq, Option.some.injEq, Prod.mk.injEq] at hw
  case claimWon i caller row new hrow hclaim =>
    obtain ⟨rfl, rfl⟩ := hw
    refine ⟨old, hold, .inr ?_⟩
    rw [(PRJob.claimPublish_eq_some.mp hclaim).2]
  case confirm i copy msgId caller =>
    obtain ⟨row, hrow, hnew⟩ := Option.map_eq_some_iff.mp hw
    cases hnew
    exact ⟨row, hrow, PRJob.flush_updatedAt ..⟩
  case unclaim i copy exc =>
    obtain ⟨row, hrow, hnew⟩ := Option.map_eq_some_iff.mp hw
    cases hnew
    exact ⟨row, hrow, PRJob.flush_updatedAt ..⟩

theorem Attended.step_row (hs : Attended s) (h : step cfg s a = some t) (j : JobId) (row : PRJob)
    (hrow : t.jobs j = some row) : row.updatedAt ≤ t.now := by
  have hnow := step_now h
  obtain hquiet | ⟨w, act, msg, eff, -, hmsg, hmove, rfl⟩ | ⟨p, act, eff, -, hmove, rfl⟩ :=
    step_cases h
  · rw [hquiet.jobs] at hrow
    exact Nat.le_trans (hs.row j row hrow) hnow
  · obtain hsame | ⟨job, rfl, hw, hnew⟩ := applyWorker_row s w msg eff j
    · exact hs.row j row (hsame ▸ hrow)
    · cases hnew.symm.trans hrow
      obtain ⟨old, hold, hdate⟩ := hmove.dated hw
      obtain hdate | hdate | hdate := hdate
      · rw [hdate]
        exact hs.row _ old hold
      · exact Nat.le_of_eq hdate
      · exact hs.stamp w _ hdate
  · obtain hsame | ⟨payload, -, -, hnew, -, -⟩ | ⟨job, hw, hnew⟩ := applyPublisher_row hmove j
    · exact hs.row j row (hsame ▸ hrow)
    · cases hnew.symm.trans hrow
      exact Nat.le_refl _
    · cases hnew.symm.trans hrow
      obtain ⟨old, hold, hdate⟩ := hmove.dated hw
      obtain hdate | hdate := hdate
      · rw [hdate]
        exact hs.row _ old hold
      · exact Nat.le_of_eq hdate

theorem Attended.step_stamp (hs : Attended s) (h : step cfg s a = some t) (w : WorkerId)
    (stamp : Nat) (hstamp : (t.workers w).stamp = some stamp) : stamp ≤ t.now := by
  have hnow := step_now h
  obtain hsame | ⟨e, entry, -, hpc⟩ | ⟨act, msg, eff, -, -, hmove, rfl⟩ := step_workers h w
  · exact Nat.le_trans (hs.stamp w stamp (hsame ▸ hstamp)) hnow
  · rw [hpc] at hstamp
    cases hstamp
  · rw [applyWorker_self] at hstamp
    obtain hold | rfl := hmove.stamp hstamp
    · exact hs.stamp w stamp hold
    · exact Nat.le_refl _

/-- What an entry says of its delivery after a step: what it said before, or that it has just been
delivered, or nothing because it is new. -/
inductive EntryStep (s t : State) (e : EntryId) (entry : StreamEntry) : Prop where
  | kept (old) (hold : s.stream e = some old) (hsame : entry.deliveredAt = old.deliveredAt)
      (hcursor : e < s.cursor ↔ e < t.cursor)
  | delivered (old) (hold : s.stream e = some old) (hnow : entry.deliveredAt = some s.now)
      (hcursor : e < t.cursor)
  | added (hnew : e = s.nextEntry) (hnone : entry.deliveredAt = none) (hcursor : t.cursor = s.cursor)

theorem deliver_stream_self (w : WorkerId) (e : EntryId) (entry : StreamEntry) :
    (s.deliver w e entry).stream e = some { entry with deliveredAt := some s.now } :=
  Table.write_self ..

theorem deliver_stream_of_ne (w : WorkerId) {e e' : EntryId} (entry : StreamEntry) (h : e' ≠ e) :
    (s.deliver w e entry).stream e' = s.stream e' := by
  simp [State.deliver, Table.write_of_ne _ _ h]

theorem step_cursor (h : step cfg s a = some t) :
    t.cursor = s.cursor ∨ (t.cursor = s.cursor + 1 ∧ ∃ entry, s.stream s.cursor = some entry) := by
  cases a with
  | tick elapsed =>
    cases h
    exact .inl rfl
  | consume w =>
    obtain ⟨entry, -, hentry, rfl⟩ := step_consume h
    exact .inr ⟨rfl, entry, hentry⟩
  | reclaim w e =>
    obtain ⟨entry, _, -, -, -, -, -, rfl⟩ := step_reclaim h
    exact .inl rfl
  | worker w act =>
    obtain ⟨msg, eff, -, -, rfl⟩ := step_worker h
    exact .inl rfl
  | publisher p act =>
    obtain ⟨eff, -, rfl⟩ := step_publisher h
    exact .inl rfl

theorem Attended.step_entry (hs : Attended s) (h : step cfg s a = some t) {e : EntryId}
    {entry : StreamEntry} (hentry : t.stream e = some entry) : EntryStep s t e entry := by
  cases a with
  | tick elapsed =>
    cases h
    exact .kept entry hentry rfl .rfl
  | consume w =>
    obtain ⟨next, -, hnext, rfl⟩ := step_consume h
    by_cases he : e = s.cursor
    · subst he
      cases (deliver_stream_self w _ next).symm.trans hentry
      exact .delivered next hnext rfl (Nat.lt_succ_self _)
    · have hold : s.stream e = some entry := (deliver_stream_of_ne w next he).symm.trans hentry
      refine .kept entry hold rfl ⟨fun hlt => Nat.lt_succ_of_lt hlt, ?_⟩
      intro hlt
      exact Nat.lt_of_le_of_ne (Nat.le_of_lt_succ hlt) he
  | reclaim w e' =>
    obtain ⟨next, d, -, hnext, hd, -, -, rfl⟩ := step_reclaim h
    by_cases he : e = e'
    · subst he
      cases (deliver_stream_self w _ next).symm.trans hentry
      refine .delivered next hnext rfl ((hs.handed e next hnext).mp ?_)
      rw [hd]
      rfl
    · exact .kept entry ((deliver_stream_of_ne w next he).symm.trans hentry) rfl .rfl
  | worker w act =>
    obtain ⟨msg, eff, -, -, rfl⟩ := step_worker h
    cases hack : eff.ack with
    | false =>
      refine .kept entry ?_ rfl .rfl
      simpa [State.applyWorker, hack] using hentry
    | true =>
      simp only [State.applyWorker, hack, if_true, State.ack] at hentry
      by_cases he : e = msg.id
      · subst he
        cases hold : s.stream msg.id with
        | none => simp [hold] at hentry
        | some old =>
          simp only [hold, Option.map_some, Table.write_self, Option.some.injEq] at hentry
          subst hentry
          exact .kept old hold rfl .rfl
      · rw [Table.write_of_ne _ _ he] at hentry
        exact .kept entry hentry rfl .rfl
  | publisher p act =>
    obtain ⟨eff, hmove, rfl⟩ := step_publisher h
    cases hx : eff.xadd with
    | none =>
      refine .kept entry ?_ rfl .rfl
      simpa [State.applyPublisher, hx] using hentry
    | some msg =>
      simp only [State.applyPublisher, hx] at hentry
      by_cases he : e = s.nextEntry
      · subst he
        rw [Table.write_self] at hentry
        cases hentry
        exact .added rfl rfl rfl
      · rw [Table.write_of_ne _ _ he] at hentry
        exact .kept entry hentry rfl .rfl

theorem Attended.step_delivery (hs : Attended s) (h : step cfg s a = some t) (e : EntryId)
    (entry : StreamEntry) (d : Nat) (hentry : t.stream e = some entry)
    (hd : entry.deliveredAt = some d) : d ≤ t.now := by
  have hnow := step_now h
  cases hs.step_entry h hentry with
  | kept old hold hsame => exact Nat.le_trans (hs.delivery e old d hold (hsame ▸ hd)) hnow
  | delivered old hold hjust =>
    cases hjust.symm.trans hd
    exact hnow
  | added hnew hnone => cases hnone.symm.trans hd

theorem Attended.step_handed (hs : Attended s) (h : step cfg s a = some t) (e : EntryId)
    (entry : StreamEntry) (hentry : t.stream e = some entry) :
    entry.deliveredAt.isSome ↔ e < t.cursor := by
  cases hs.step_entry h hentry with
  | kept old hold hsame hcursor =>
    rw [hsame, hs.handed e old hold]
    exact hcursor
  | delivered old hold hjust hcursor =>
    rw [hjust]
    exact iff_of_true rfl hcursor
  | added hnew hnone hcursor =>
    rw [hnone]
    rw [hnew, hcursor]
    exact iff_of_false Bool.false_ne_true (Nat.not_lt_of_ge hs.behind)

theorem Attended.step_present (hwf : WellFormed s) (hs : Attended s) (h : step cfg s a = some t)
    (e : EntryId) (he : e < t.nextEntry) : ∃ entry, t.stream e = some entry := by
  by_cases hlt : e < s.nextEntry
  · obtain ⟨entry, hentry⟩ := hs.present e hlt
    obtain ⟨entry', hentry', -⟩ := hwf.stream_persist h hentry
    exact ⟨entry', hentry'⟩
  · obtain hquiet | ⟨w, act, msg, eff, -, -, -, rfl⟩ | ⟨p, act, eff, -, -, rfl⟩ := step_cases h
    · rw [hquiet.nextEntry] at he
      exact absurd he hlt
    · exact absurd he hlt
    · simp only [State.applyPublisher] at he ⊢
      cases hx : eff.xadd with
      | none =>
        rw [hx] at he
        exact absurd he hlt
      | some msg =>
        rw [hx] at he
        simp only [Option.isSome_some, if_true] at he
        obtain rfl : s.nextEntry = e :=
          Nat.le_antisymm (Nat.le_of_not_lt hlt) (Nat.le_of_lt_succ he)
        exact ⟨_, Table.write_self ..⟩

theorem step_idle (h : step cfg s a = some t) :
    ∃ w, ∀ v, v ≠ w → t.workers v = s.workers v := by
  cases a with
  | tick elapsed =>
    cases h
    exact ⟨0, fun _ _ => rfl⟩
  | consume w =>
    obtain ⟨entry, -, -, rfl⟩ := step_consume h
    exact ⟨w, fun v hv => Function.update_of_ne hv _ _⟩
  | reclaim w e =>
    obtain ⟨entry, _, -, -, -, -, -, rfl⟩ := step_reclaim h
    exact ⟨w, fun v hv => Function.update_of_ne hv _ _⟩
  | worker w act =>
    obtain ⟨msg, eff, -, -, rfl⟩ := step_worker h
    exact ⟨w, fun v hv => Function.update_of_ne hv _ _⟩
  | publisher p act =>
    obtain ⟨eff, -, rfl⟩ := step_publisher h
    exact ⟨0, fun _ _ => rfl⟩

theorem Attended.step (hwf : WellFormed s) (hs : Attended s) (h : step cfg s a = some t) :
    Attended t where
  row := hs.step_row h
  stamp := hs.step_stamp h
  delivery := hs.step_delivery h
  handed := hs.step_handed h
  present := hs.step_present hwf h
  behind := by
    have hmono := step_nextEntry h
    obtain hsame | ⟨hnext, entry, hentry⟩ := step_cursor h
    · rw [hsame]
      exact Nat.le_trans hs.behind hmono
    · rw [hnext]
      exact Nat.le_trans (hwf.stream_lt _ entry hentry) hmono
  idle := by
    obtain ⟨n, hn⟩ := hs.idle
    obtain ⟨w, hw⟩ := step_idle h
    refine ⟨max n (w + 1), ?_⟩
    intro v hv
    rw [hw v (Nat.ne_of_gt (Nat.le_trans (Nat.le_max_right n _) hv))]
    exact hn v (Nat.le_trans (Nat.le_max_left _ _) hv)

theorem Reachable.attended {ok : State → Action → Prop} (h : (pipeline cfg).Reachable ok s) :
    Attended s :=
  Reachable.invariant (fun _ hu => Reachable.wellFormed hu) Attended.initial
    (fun _ _ _ hwf _ hstep hs => hs.step hwf hstep) h

end

end AutoPR.Jobs
