import AutoPR.Jobs.Invariant
import AutoPR.Library.OneShot

/-! The publication of a job is a one-shot permit. PENDING is the free permit, the
claim takes it, a raising publish fails, writing PENDING back puts it back, and
whatever else ends a claim closes it. Every run of the pipeline is, for each
job, a run of the permit. -/
namespace AutoPR.Jobs
open UnitOfWork Transition OneShot

def PublisherPc.stake (j : JobId) : PublisherPc → Option Stake
  | .refreshing i _ | .publishing i _ _ => if i = j then some .holding else none
  | .unclaiming i _ _ => if i = j then some .failed else none
  | _ => none

/-- The copy a call would put PENDING back from. -/
def PublisherPc.copy : PublisherPc → Option PRJob
  | .publishing _ copy _ | .unclaiming _ copy _ => some copy
  | _ => none

def Event.publishes (j : JobId) : Event → Bool
  | .published i _ | .publishRaised i => i = j
  | _ => false

def Event.raises (j : JobId) : Event → Bool
  | .publishRaised i => i = j
  | _ => false

/-- The calls of `queue.publish` made for a job. -/
def State.publishCalls (s : State) (j : JobId) : Nat := s.events.countP (Event.publishes j)

/-- Those of them that raised. -/
def State.publishRaises (s : State) (j : JobId) : Nat := s.events.countP (Event.raises j)

def State.Unpublished (s : State) (j : JobId) : Prop :=
  ∀ row, s.jobs j = some row → row.status = .pending

@[simp] theorem Caller.resume_stake (caller : Caller) (i j : JobId) (published : Bool) :
    (caller.resume i published).stake j = none := by
  cases caller <;> rfl

theorem WorkerMove.publishes_none {cfg : Settings} {now : Nat} {row : Option PRJob} {pc : WorkerPc}
    {act : WorkerAct} {eff : WorkerEffect} (h : WorkerMove cfg now row pc act eff) (j : JobId) :
    eff.events.countP (Event.publishes j) = 0 ∧ eff.events.countP (Event.raises j) = 0 := by
  cases h <;> exact ⟨rfl, rfl⟩

/-- A call that has no stake before or after its step publishes nothing and leaves
the row's status as it is. -/
theorem PublisherMove.unstaked {cfg : Settings} {now : Nat} {jobs : JobTable} {nextId j : JobId}
    {nextEntry : EntryId} {p : PublisherId} {pc : PublisherPc}
    {act : PublisherAct} {eff : PublisherEffect}
    (h : PublisherMove cfg now jobs nextId nextEntry p pc act eff)
    (hpc : pc.stake j = none) (hpc' : eff.pc.stake j = none) :
    eff.events.countP (Event.publishes j) = 0 ∧ eff.events.countP (Event.raises j) = 0 ∧
      ∀ job, eff.write = some (j, job) → ∃ old, jobs j = some old ∧ job.status = old.status := by
  cases h with
  | claimWon i caller row job hrow hclaim =>
    refine ⟨rfl, rfl, fun job' hw => ?_⟩
    cases hw
    simp [PublisherPc.stake] at hpc'
  | confirm i copy msgId caller =>
    refine ⟨rfl, rfl, fun job' hw => ?_⟩
    obtain ⟨old, hrow, hnew⟩ := Option.map_eq_some_iff.mp hw
    cases hnew
    exact ⟨old, hrow, PRJob.confirm_status ..⟩
  | unclaim i copy exc =>
    refine ⟨rfl, rfl, fun job' hw => ?_⟩
    obtain ⟨old, -, hnew⟩ := Option.map_eq_some_iff.mp hw
    cases hnew
    simp [PublisherPc.stake] at hpc
  | publishOk i copy caller correlationId =>
    have hij : i ≠ j := by simpa [PublisherPc.stake] using hpc
    refine ⟨?_, rfl, fun _ hw => by cases hw⟩
    simp [Event.publishes, hij]
  | publishLanded i copy caller _ exc | publishFailed i copy caller _ exc =>
    have hij : i ≠ j := by simpa [PublisherPc.stake] using hpc
    refine ⟨?_, ?_, fun _ hw => by cases hw⟩
    · simp [Event.publishes, hij]
    · simp [Event.raises, hij]
  | _ => exact ⟨rfl, rfl, fun _ hw => by cases hw⟩

structure Tracks (j : JobId) (s : State) (x : Permit PublisherId) : Prop where
  uses : x.uses = s.publishCalls j
  failures : x.failures = s.publishRaises j
  stake : ∀ i, (s.publishers i).stake j = x.phase.stake i
  free : s.Unpublished j ↔ x.phase = .free
  copy : ∀ i copy, (s.publishers i).stake j ≠ none → (s.publishers i).copy = some copy →
    copy.status ≠ .pending

theorem Tracks.initial (j : JobId) : Tracks j State.initial {} where
  uses := rfl
  failures := rfl
  stake _ := rfl
  free := ⟨fun _ => rfl, fun _ _ hrow => by cases hrow⟩
  copy _ _ hst := absurd rfl hst

section
variable {cfg : Settings} {s t : State} {j : JobId} {x y : Permit PublisherId}

theorem Tracks.worker {w : WorkerId} {act : WorkerAct} {msg : StreamMessage} {eff : WorkerEffect}
    (hmove : WorkerMove cfg s.now (s.jobs msg.jobId) (s.workers w) act eff) (hx : Tracks j s x) :
    ∃ y, (permit PublisherId).Run anyStep x y ∧ Tracks j (s.applyWorker w msg eff) y := by
  have hquiet := hmove.publishes_none j
  have huses : (s.applyWorker w msg eff).publishCalls j = s.publishCalls j := by
    simp [State.publishCalls, hquiet.1]
  have hfails : (s.applyWorker w msg eff).publishRaises j = s.publishRaises j := by
    simp [State.publishRaises, hquiet.2]
  have hback : (s.applyWorker w msg eff).Unpublished j → s.Unpublished j := by
    intro hnew row hrow
    obtain hsame | ⟨job, rfl, hw, hjob⟩ := applyWorker_row s w msg eff j
    · exact hnew row (hsame ▸ hrow)
    · obtain ⟨old, hold, hst⟩ := hmove.status hw
      cases hold.symm.trans hrow
      rw [hnew job hjob] at hst
      refine (hst.resolve_right fun htarget => ?_).symm
      cases act <;> cases htarget
  by_cases hsame : s.Unpublished j → (s.applyWorker w msg eff).Unpublished j
  · refine ⟨x, .refl, huses ▸ hx.uses, hfails ▸ hx.failures, hx.stake, ?_, hx.copy⟩
    exact Iff.trans ⟨hback, hsame⟩ hx.free
  · have hfree : x.phase = .free := by
      rw [← hx.free]
      exact (Classical.not_imp.mp hsame).1
    refine ⟨{ x with phase := .closed }, Run.close, huses ▸ hx.uses, hfails ▸ hx.failures, ?_, ?_,
      hx.copy⟩
    · intro i
      simpa [hfree] using hx.stake i
    · exact iff_of_false (Classical.not_imp.mp hsame).2 (by simp)

theorem Tracks.publisher_mk {p : PublisherId} {eff : PublisherEffect}
    (hx : Tracks j s x)
    (huses : y.uses = eff.events.countP (Event.publishes j) + x.uses)
    (hfails : y.failures = eff.events.countP (Event.raises j) + x.failures)
    (hself : eff.pc.stake j = y.phase.stake p)
    (hmine : ∀ i, i ≠ p → x.phase.stake i = y.phase.stake i)
    (hfree : (s.applyPublisher p eff).Unpublished j ↔ y.phase = .free)
    (hcopy : ∀ copy, eff.pc.stake j ≠ none → eff.pc.copy = some copy → copy.status ≠ .pending) :
    Tracks j (s.applyPublisher p eff) y where
  uses := by simp [huses, hx.uses, State.publishCalls]
  failures := by simp [hfails, hx.failures, State.publishRaises]
  stake i := by
    by_cases hi : i = p
    · rw [hi, applyPublisher_self, hself]
    · rw [applyPublisher_of_ne _ _ _ hi, hx.stake, hmine i hi]
  free := hfree
  copy i copy := by
    by_cases hi : i = p
    · rw [hi, applyPublisher_self]
      exact hcopy copy
    · rw [applyPublisher_of_ne _ _ _ hi]
      exact hx.copy i copy

theorem unpublished_of_status {job : PRJob} (hjob : s.jobs j = some job) :
    s.Unpublished j ↔ job.status = .pending :=
  ⟨fun h => h job hjob, fun h row hrow => by cases hjob.symm.trans hrow; exact h⟩

theorem Tracks.publisher_unstaked {p : PublisherId} {act : PublisherAct} {eff : PublisherEffect}
    (hwf : WellFormed s)
    (hmove : PublisherMove cfg s.now s.jobs s.nextId s.nextEntry p (s.publishers p) act eff)
    (hpc : (s.publishers p).stake j = none) (hpc' : eff.pc.stake j = none) (hx : Tracks j s x) :
    Tracks j (s.applyPublisher p eff) x := by
  obtain ⟨hcalls, hraises, hkeep⟩ := hmove.unstaked hpc hpc'
  refine hx.publisher_mk (by rw [hcalls, Nat.zero_add]) (by rw [hraises, Nat.zero_add]) ?_
    (fun _ _ => rfl) ?_ (fun _ hst => absurd hpc' hst)
  · rw [hpc', ← hx.stake, hpc]
  · rw [← hx.free]
    obtain hsame | ⟨payload, rfl, -, hnew, -⟩ | ⟨job, hw, hnew⟩ := applyPublisher_row hmove j
    · unfold State.Unpublished
      rw [hsame]
    · refine iff_of_true ((unpublished_of_status hnew).mpr rfl) fun row hrow => ?_
      cases hwf.jobs_nextId.symm.trans hrow
    · obtain ⟨old, hold, hst⟩ := hkeep job hw
      rw [unpublished_of_status hnew, unpublished_of_status hold, hst]

theorem Tracks.unclaim {p : PublisherId} {copy : PRJob} {exc : String} (hx : Tracks j s x)
    (hpc : s.publishers p = .unclaiming j copy exc) {row : PRJob} :
    (row.unclaim s.now copy exc).status = .pending := by
  have hst : (s.publishers p).stake j ≠ none := by simp [hpc, PublisherPc.stake]
  have hdirty : copy.status ≠ .pending := hx.copy p copy hst (by simp [hpc, PublisherPc.copy])
  rw [PRJob.unclaim_status, column_dirty (Ne.symm hdirty)]

theorem Tracks.publisher {p : PublisherId} {act : PublisherAct} {eff : PublisherEffect}
    (hwf : WellFormed s)
    (hmove : PublisherMove cfg s.now s.jobs s.nextId s.nextEntry p (s.publishers p) act eff)
    (hx : Tracks j s x) :
    ∃ y, (permit PublisherId).Run anyStep x y ∧ Tracks j (s.applyPublisher p eff) y := by
  by_cases hnone : (s.publishers p).stake j = none ∧ eff.pc.stake j = none
  · exact ⟨x, .refl, hx.publisher_unstaked hwf hmove hnone.1 hnone.2⟩
  have hself := hx.stake p
  have hcopy := hx.copy p
  have hjobs := hwf.publisher_job p
  generalize hpc : s.publishers p = pc at hmove hnone hself hcopy hjobs
  -- Of the moves that are left, each is one act of the permit.
  cases hmove with
  | claimWon i caller row job hold hclaim =>
    obtain rfl : i = j := by simpa [PublisherPc.stake] using hnone
    obtain ⟨hpending, hjob⟩ := PRJob.claimPublish_eq_some.mp hclaim
    have hphase : x.phase = .free := hx.free.mp ((unpublished_of_status hold).mpr hpending)
    refine ⟨{ x with phase := .held p }, Run.take hphase, hx.publisher_mk (Nat.zero_add _).symm
      (Nat.zero_add _).symm (by simp [PublisherPc.stake]) ?_ ?_ fun _ _ hc => by cases hc⟩
    · intro i' hi'
      rw [hphase, Phase.stake_free]
      exact (Phase.stake_of_ne (o := p) (by simp) hi').symm
    · have hnew : (s.applyPublisher p { pc := .refreshing i caller, write := some (i, job) }).jobs i
          = some job := by simp [State.applyPublisher]
      rw [unpublished_of_status hnew]
      simp [hjob]
  | refresh i caller job hold =>
    obtain rfl : i = j := by simpa [PublisherPc.stake] using hnone
    have hphase : x.phase = .held p := Phase.eq_held (by simpa [PublisherPc.stake] using hself.symm)
    refine ⟨x, .refl, hx.publisher_mk (Nat.zero_add _).symm (Nat.zero_add _).symm
      (by simpa [PublisherPc.stake] using hself) (fun _ _ => rfl) hx.free ?_⟩
    intro copy _ hc hpending
    cases hc
    have hfree := hx.free.mp ((unpublished_of_status hold).mpr hpending)
    cases hphase.symm.trans hfree
  | publishOk i copy caller correlationId =>
    obtain rfl : i = j := by simpa [PublisherPc.stake] using hnone
    have hphase : x.phase = .held p := Phase.eq_held (by simpa [PublisherPc.stake] using hself.symm)
    refine ⟨{ x with phase := .closed, uses := x.uses + 1 }, Run.succeed hphase,
      hx.publisher_mk ?_ ?_ (by simp [PublisherPc.stake]) ?_ (hx.free.trans (by simp [hphase]))
        fun _ _ hc => by cases hc⟩
    · simp [Event.publishes, Nat.add_comm]
    · simp [Event.raises]
    · intro i' hi'
      exact Phase.stake_of_ne (o := p) (by simp [hphase]) hi'
  | publishLanded i copy caller correlationId exc | publishFailed i copy caller correlationId exc =>
    obtain rfl : i = j := by simpa [PublisherPc.stake] using hnone
    have hphase : x.phase = .held p := Phase.eq_held (by simpa [PublisherPc.stake] using hself.symm)
    refine ⟨⟨.failed p, x.uses + 1, x.failures + 1⟩, Run.fail hphase,
      hx.publisher_mk ?_ ?_ (by simp [PublisherPc.stake]) ?_ (hx.free.trans (by simp [hphase])) ?_⟩
    · simp [Event.publishes, Nat.add_comm]
    · simp [Event.raises, Nat.add_comm]
    · intro i' hi'
      rw [Phase.stake_of_ne (o := p) (by simp [hphase]) hi']
      exact (Phase.stake_of_ne (o := p) (by simp) hi').symm
    · intro copy' _ hc
      exact hcopy copy' (by simp [PublisherPc.stake]) hc
  | unclaim i copy exc =>
    obtain rfl : i = j := by simpa [PublisherPc.stake] using hnone
    have hphase : x.phase = .failed p :=
      Phase.eq_failed (by simpa [PublisherPc.stake] using hself.symm)
    obtain ⟨row, hold⟩ := hjobs i (List.mem_singleton_self i)
    refine ⟨{ x with phase := .free }, Run.putBack (.inr hphase), hx.publisher_mk (Nat.zero_add _).symm
      (Nat.zero_add _).symm (by simp [PublisherPc.stake]) ?_ ?_ fun _ _ hc => by cases hc⟩
    · intro i' hi'
      exact Phase.stake_of_ne (o := p) (by simp [hphase]) hi'
    · refine iff_of_true (fun job hjob => ?_) rfl
      have hnew : job = row.unclaim s.now copy exc := by
        simpa [State.applyPublisher, hold, eq_comm] using hjob
      rw [hnew, hx.unclaim hpc]
  | refreshMissing i caller hmissing =>
    obtain ⟨row, hold⟩ := hjobs i List.mem_cons_self
    cases hmissing.symm.trans hold
  | crash pc =>
    have hst : x.phase.stake p ≠ none := by
      rw [← hself]
      exact fun h => hnone ⟨h, rfl⟩
    refine ⟨{ x with phase := .closed }, Run.close, hx.publisher_mk (Nat.zero_add _).symm
      (Nat.zero_add _).symm rfl (fun i' hi' => Phase.stake_of_ne hst hi') ?_
      fun _ _ hc => by cases hc⟩
    exact hx.free.trans ⟨fun hfree => by simp [hfree] at hst, fun h => by cases h⟩
  | claimLost i caller | confirm i copy msgId caller =>
    exact absurd ⟨rfl, Caller.resume_stake ..⟩ hnone
  | _ => exact absurd ⟨rfl, rfl⟩ hnone

theorem Tracks.step {a : Action} (hwf : WellFormed s) (h : step cfg s a = some t)
    (hx : Tracks j s x) : ∃ y, (permit PublisherId).Run anyStep x y ∧ Tracks j t y := by
  obtain hquiet | ⟨w, act, msg, eff, -, -, hmove, rfl⟩ | ⟨p, act, eff, -, hmove, rfl⟩ :=
    step_cases h
  · refine ⟨x, .refl, ?_⟩
    constructor
    · rw [State.publishCalls, hquiet.events]
      exact hx.uses
    · rw [State.publishRaises, hquiet.events]
      exact hx.failures
    · rw [hquiet.publishers]
      exact hx.stake
    · rw [State.Unpublished, hquiet.jobs]
      exact hx.free
    · rw [hquiet.publishers]
      exact hx.copy
  · exact hx.worker hmove
  · exact hx.publisher hwf hmove

end

theorem Reachable.tracks {cfg : Settings} {ok : State → Action → Prop} {s : State}
    (h : (pipeline cfg).Reachable ok s) (j : JobId) :
    ∃ x, (permit PublisherId).Reachable anyStep x ∧ Tracks j s x :=
  Reachable.simulate (fun _ => Reachable.wellFormed) (Tracks.initial j)
    (fun _ _ _ _ hwf _ hstep hx => hx.step hwf hstep) h

theorem publishCalls_le {cfg : Settings} {ok : State → Action → Prop} {s : State}
    (h : (pipeline cfg).Reachable ok s) (j : JobId) :
    s.publishCalls j ≤ s.publishRaises j + 1 := by
  obtain ⟨x, hreach, hx⟩ := Reachable.tracks h j
  rw [← hx.uses, ← hx.failures]
  exact (Reachable.sound hreach).uses_le

end AutoPR.Jobs
