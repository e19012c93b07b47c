import AutoPR.Routing.AutoPath

/-! The human channels: two ways to approve, two to reject and the requeue, racing on
one status column. They exclude each other, and a claim comes with one post. -/
namespace AutoPR.Routing
open Python UnitOfWork Transition

def Event.claimOf (q : RequestId) (d : DecisionId) : Event → Bool
  | .claimed i j => i = q && j = d
  | _ => false

def Event.postOf (q : RequestId) (d : DecisionId) : Event → Bool
  | .posted (.request i) (some j) _ _ => i = q && j = d
  | _ => false

def Event.bodyOf (d : DecisionId) : Event → Bool
  | .posted _ (some j) _ _ => j = d
  | _ => false

namespace State

/-- The "claimed" outcomes that the request has got for the row. -/
def claims (s : State) (q : RequestId) (d : DecisionId) : Nat :=
  s.events.countP (Event.claimOf q d)

/-- The posts of the row's body that the request has made. -/
def posts (s : State) (q : RequestId) (d : DecisionId) : Nat :=
  s.events.countP (Event.postOf q d)

/-- The posts of the row's body by anyone. -/
def bodies (s : State) (d : DecisionId) : Nat := s.events.countP (Event.bodyOf d)

/-- The steps of a run in which the row only takes the gated branch, no request dies
and no sweep commits. -/
def gatedOnly (s : State) (d : DecisionId) : Step → Bool
  | .router r act =>
      match s.routers r, act with
      | .selecting run key, .select | .reselecting run key, .select =>
          run.decision.requiresApproval ||
            (findDecision s.rows s.nextId key).all fun c => c.1 ≠ d
      | .inserting run key _, .insert =>
          run.decision.requiresApproval || s.nextId ≠ d ||
            (findDecision s.rows s.nextId key).isSome
      | _, _ => true
  | .request _ .crash | .request _ .commit => false
  | .request _ _ => true

end State

def RequestPc.early : RequestPc → Bool
  | .idle | .looking _ _ _ _ _ | .claiming _ _ _ | .loading _ _ | .retrying _ _ _ => true
  | _ => false

/-- About to post the row's body. -/
def RequestPc.isPosting (d : DecisionId) : RequestPc → Bool
  | .posting _ i _ => i = d
  | _ => false

theorem State.Enacts.gatedOnly {s : State} {d : DecisionId} {a : Step} {act : Life.Act}
    (h : s.Enacts d a act) (hok : s.gatedOnly d a = true) : (s.life d).GatedOnly act := by
  cases h with
  | create r run key row hpc hfind hd =>
    subst hd
    have hgated : run.decision.requiresApproval = true := by
      simpa [State.gatedOnly, hpc, hfind] using hok
    simp [Life.GatedOnly, hgated]
  | pickUp r run key row hpc hfind hauto hst =>
    obtain hpc | hpc := hpc <;> simp [State.gatedOnly, hpc, hfind, hauto] at hok
  | sweep q copies hpc hmem => cases hok
  | _ => trivial

/-- A step of a request is silent about the row, claims it and is about to post it, or
posts it. -/
inductive Voice (q : RequestId) (d : DecisionId) (pc : RequestPc) (eff : Effect RequestPc) : Prop
  | silent (hclaims : eff.events.countP (Event.claimOf q d) = 0)
      (hposts : eff.events.countP (Event.postOf q d) = 0)
      (hposting : eff.pc.isPosting d = pc.isPosting d)
      (hearly : eff.pc.early = true → pc.early = true)
  | claims (hclaims : eff.events.countP (Event.claimOf q d) = 1)
      (hposts : eff.events.countP (Event.postOf q d) = 0) (hbefore : pc.isPosting d = false)
      (hafter : eff.pc.isPosting d = true) (hearly : pc.early = true)
      (hlate : eff.pc.early = false)
  | posts (hclaims : eff.events.countP (Event.claimOf q d) = 0)
      (hposts : eff.events.countP (Event.postOf q d) = 1) (hbefore : pc.isPosting d = true)
      (hafter : eff.pc.isPosting d = false) (hlate : eff.pc.early = false)

section
variable {cfg : Settings} {rows : DecisionTable} {nextId : DecisionId} {q : RequestId}
  {d : DecisionId} {pc : RequestPc} {act : RequestAct} {eff : Effect RequestPc}

theorem finish_silent (channel : Channel) (i : DecisionId) (verb : Verb) (outcome : Outcome) :
    (channel.finish i verb outcome).isPosting d = false ∧
      (channel.finish i verb outcome).early = false := by
  obtain heq | ⟨comment, heq⟩ := finish_cases channel i verb outcome <;> rw [heq] <;> exact ⟨rfl, rfl⟩

theorem afterLost_silent (channel : Channel) (i : DecisionId) (copy : ReviewDecision) :
    (afterLost channel i copy).isPosting d = false := by
  obtain ⟨outcome, heq⟩ | ⟨-, heq⟩ := afterLost_cases channel i copy <;> rw [heq]
  · exact (finish_silent channel i .approve outcome).1
  · rfl

theorem afterClaimed_posting (hhandoff : cfg.handoffMode = false) (channel : Channel)
    (i : DecisionId) (copy : ReviewDecision) :
    afterClaimed cfg channel i copy = .posting channel i copy := by
  obtain ⟨htrue, -⟩ | heq := afterClaimed_cases cfg channel i copy
  · cases hhandoff.symm.trans htrue
  · exact heq

theorem rejectNext_silent (channel : Channel) (i : DecisionId) (held : Option ReviewDecision)
    (won : Bool) : (rejectNext channel i held won).isPosting d = false ∧
      (rejectNext channel i held won).early = false := by
  cases held with
  | none => exact ⟨rfl, rfl⟩
  | some copy => exact finish_silent channel i .reject _

theorem Voice.won {channel : Channel} {i : DecisionId} {copy : ReviewDecision}
    (hearly : pc.early = true) (hbefore : pc.isPosting d = false)
    (hpc : eff.pc = .posting channel i copy)
    (hevents : eff.events = [.claimed q i, .set i .approved (.human q)] ∨
      eff.events = [.claimed q i]) :
    Voice q d pc eff := by
  by_cases hi : i = d
  · subst hi
    refine .claims ?_ ?_ hbefore (by simp [hpc, RequestPc.isPosting]) hearly (by rw [hpc]; rfl)
    · obtain heq | heq := hevents <;> simp [heq, Event.claimOf]
    · obtain heq | heq := hevents <;> simp [heq, Event.postOf]
  · refine .silent ?_ ?_ ?_ fun _ => hearly
    · obtain heq | heq := hevents <;> simp [heq, Event.claimOf, hi]
    · obtain heq | heq := hevents <;> simp [heq, Event.postOf]
    · rw [hbefore, hpc]
      simp [RequestPc.isPosting, hi]

theorem Voice.of_quiet
    (hevents : ∀ e ∈ eff.events, e.claimOf q d = false ∧ e.postOf q d = false)
    (hposting : eff.pc.isPosting d = pc.isPosting d)
    (hearly : eff.pc.early = true → pc.early = true) : Voice q d pc eff := by
  refine .silent ?_ ?_ hposting hearly
  · exact List.countP_eq_zero.mpr fun e he => by simp [(hevents e he).1]
  · exact List.countP_eq_zero.mpr fun e he => by simp [(hevents e he).2]

theorem Voice.of_sets (hevents : ∀ e ∈ eff.events, ∃ i status setter, e = .set i status setter)
    (hposting : eff.pc.isPosting d = pc.isPosting d)
    (hearly : eff.pc.early = true → pc.early = true) : Voice q d pc eff := by
  refine .of_quiet ?_ hposting hearly
  intro e he
  obtain ⟨i, status, setter, rfl⟩ := hevents e he
  exact ⟨rfl, rfl⟩

theorem voice_begin (verb : Verb) (channel : Channel) (i : DecisionId) :
    Voice q d .idle { pc := startRequest cfg verb channel i, events := [.requested q] } := by
  refine .of_quiet ?_ ?_ fun _ => rfl
  · intro e he
    rw [List.mem_singleton.mp he]
    exact ⟨rfl, rfl⟩
  · obtain ⟨outcome, heq⟩ | heq | heq | ⟨repo, n, installation, heq⟩ :=
      startRequest_cases cfg verb channel i <;> rw [heq] <;> rfl

theorem voice_post (channel : Channel) (i : DecisionId) (copy : ReviewDecision)
    (outcome : PostOutcome) (comment : Comment) :
    Voice q d (.posting channel i copy)
      { pc := afterExecute channel i copy outcome,
        events := [.posted (.request q) (some i) comment outcome.ok] } := by
  have hafter : (afterExecute channel i copy outcome).isPosting d = false ∧
      (afterExecute channel i copy outcome).early = false := by
    cases outcome <;> exact ⟨rfl, rfl⟩
  by_cases hi : i = d
  · subst hi
    refine .posts ?_ ?_ (by simp [RequestPc.isPosting]) hafter.1 hafter.2
    · simp [Event.claimOf]
    · simp [Event.postOf]
  · refine .of_quiet ?_ ?_ ?_
    · intro e he
      rw [List.mem_singleton.mp he]
      exact ⟨rfl, by simp [Event.postOf, hi]⟩
    · rw [hafter.1]
      simp [RequestPc.isPosting, hi]
    · rw [hafter.2]
      exact fun hearly => by cases hearly

theorem voice_unposted {channel : Channel} {i : DecisionId} {copy : ReviewDecision}
    (hcomment : ∀ channel' copy', RequestPc.posting channel i copy = .posting channel' d copy' →
      ∃ comment, copy'.comment cfg.unicode = .ok (some comment))
    (hno : ∀ comment, copy.comment cfg.unicode ≠ .ok (some comment)) (hevents : eff.events = [])
    (hposting : eff.pc.isPosting d = false) (hearly : eff.pc.early = false) :
    Voice q d (.posting channel i copy) eff := by
  by_cases hi : i = d
  · subst hi
    obtain ⟨comment, hsome⟩ := hcomment channel copy rfl
    exact absurd hsome (hno comment)
  · refine .of_quiet ?_ ?_ fun h => by cases hearly.symm.trans h
    · rw [hevents]
      exact fun e he => by cases he
    · rw [hposting]
      simp [RequestPc.isPosting, hi]

theorem voice_reply (comment : Comment) (outcome : Outcome) (result : PostOutcome) :
    Voice q d (.replying comment outcome)
      { pc := match result with
          | .answered _ => .answered outcome
          | .raised => .raised
        events := [.replied q comment result.ok] } := by
  refine .of_quiet ?_ ?_ ?_
  · intro e he
    rw [List.mem_singleton.mp he]
    exact ⟨rfl, rfl⟩
  · cases result <;> rfl
  · cases result <;> exact fun hearly => by cases hearly

theorem voice_commit (copies : List (DecisionId × ReviewDecision)) (hpc : eff.pc.isPosting d = false)
    (hearly : eff.pc.early = false)
    (hevents : eff.events = copies.map fun c => .set c.1 .failed (.sweep q)) :
    Voice q d (.swept copies) eff := by
  refine .of_sets ?_ hpc fun h => by cases hearly.symm.trans h
  intro e he
  rw [hevents] at he
  obtain ⟨c, -, rfl⟩ := List.mem_map.mp he
  exact ⟨_, _, _, rfl⟩

theorem RequestMove.voice (h : RequestMove cfg rows nextId q pc act eff)
    (hhandoff : cfg.handoffMode = false) (hcrash : act ≠ .crash)
    (hcomment : ∀ channel copy, pc = .posting channel d copy →
      ∃ comment, copy.comment cfg.unicode = .ok (some comment)) : Voice q d pc eff := by
  have hnothing : ∀ e ∈ ([] : List Event), ∃ i status setter, e = .set i status setter :=
    fun e he => by cases he
  have hmark : ∀ i copy status, ∀ e ∈ markEvents i copy status (.human q),
      ∃ i status setter, e = .set i status setter :=
    fun i copy status e he => ⟨_, _, _, (markEvents_cases he).1⟩
  cases h with
  | begin verb channel i => exact voice_begin verb channel i
  | beginRequeue i | beginSweep =>
    refine .of_quiet ?_ rfl fun _ => rfl
    intro e he
    rw [List.mem_singleton.mp he]
    exact ⟨rfl, rfl⟩
  | lookApprove | lookReject => exact .of_sets hnothing rfl fun _ => rfl
  | lookNone verb repo n installation i =>
    exact .of_sets hnothing (finish_silent (.comment repo n installation) i verb _).1 fun _ => rfl
  | claimWon channel i held row new =>
    cases held with
    | none => exact .of_sets (by simp [claimNext]) rfl fun _ => rfl
    | some copy =>
      refine Voice.won rfl rfl (afterClaimed_posting hhandoff channel i _) (.inl rfl)
  | claimLost channel i held =>
    cases held with
    | none => exact .of_sets hnothing rfl fun _ => rfl
    | some copy => exact .of_sets hnothing (afterLost_silent channel i _) fun _ => rfl
  | load i won row =>
    cases won with
    | true => exact Voice.won rfl rfl (afterClaimed_posting hhandoff .ops i row) (.inr rfl)
    | false => exact .of_sets hnothing (afterLost_silent .ops i row) fun _ => rfl
  | loadNone | loadRejectedNone => exact .of_sets hnothing rfl fun hearly => by cases hearly
  | retryWon channel i copy row new =>
    exact Voice.won rfl rfl (afterClaimed_posting hhandoff channel i _) (.inl rfl)
  | retryLost channel i copy =>
    exact .of_sets hnothing (finish_silent channel i .approve _).1 fun _ => rfl
  | hand i copy row => exact .of_sets (hmark i copy _) rfl fun hearly => by cases hearly
  | handMissing | markMissing => exact .of_sets hnothing rfl fun hearly => by cases hearly
  | post channel i copy outcome comment => exact voice_post channel i copy outcome comment
  | postNothing channel i copy outcome hnone =>
    exact voice_unposted hcomment (fun _ h => by cases hnone.symm.trans h) rfl rfl rfl
  | postError channel i copy outcome e herror =>
    exact voice_unposted hcomment (fun _ h => by cases herror.symm.trans h) rfl rfl rfl
  | mark channel i copy result row =>
    obtain ⟨hposting, hearly⟩ := finish_silent (d := d) channel i .approve
      (if result.ok then .executed result.url else .actionFailed result.detail)
    exact .of_sets (hmark i copy _) hposting fun h => by cases hearly.symm.trans h
  | rejectWon channel i held row new =>
    obtain ⟨hposting, hearly⟩ := rejectNext_silent (d := d) channel i held true
    exact .of_sets (by simp) hposting fun h => by cases hearly.symm.trans h
  | rejectLost channel i held =>
    obtain ⟨hposting, hearly⟩ := rejectNext_silent (d := d) channel i held false
    exact .of_sets hnothing hposting fun h => by cases hearly.symm.trans h
  | loadRejected i won row => exact .of_sets hnothing rfl fun hearly => by cases hearly
  | requeueWon i row new => exact .of_sets (by simp) rfl fun hearly => by cases hearly
  | requeueLost | select | selectNone =>
    exact .of_sets hnothing rfl fun hearly => by cases hearly
  | commit copies => exact voice_commit copies rfl rfl rfl
  | reply comment outcome result => exact voice_reply comment outcome result
  | dbError pc hidle hpost =>
    refine .of_sets hnothing ?_ fun hearly => by cases hearly
    cases pc with
    | posting channel i copy => exact absurd rfl (hpost channel i copy)
    | _ => rfl
  | crash => exact absurd rfl hcrash

end

def Event.speaker : Event → Option RequestId
  | .claimed q _ | .posted (.request q) _ _ _ => some q
  | _ => none

theorem Event.claimOf_speaker {q : RequestId} {d : DecisionId} {e : Event}
    (h : e.claimOf q d = true) : e.speaker = some q := by
  cases e <;> simp_all [Event.claimOf, Event.speaker]

theorem Event.postOf_speaker {q : RequestId} {d : DecisionId} {e : Event}
    (h : e.postOf q d = true) : e.speaker = some q := by
  cases e with
  | posted actor target comment ok =>
    cases actor with
    | router r => cases h
    | request i =>
      cases target with
      | none => cases h
      | some j =>
        simp only [Event.postOf, Bool.and_eq_true, decide_eq_true_eq] at h
        exact congrArg some h.1
  | _ => cases h

section
variable {cfg : Settings} {rows : DecisionTable} {nextId : DecisionId}

theorem RouterMove.speaker {r : RouterId} {pc : RouterPc} {act : RouterAct} {eff : Effect RouterPc}
    (h : RouterMove cfg rows nextId r pc act eff) {e : Event} (he : e ∈ eff.events) :
    e.speaker = none := by
  obtain ⟨_, _, -, rfl, -⟩ | ⟨_, _, _, rfl⟩ | ⟨_, _, _, _, _, -, rfl⟩ | ⟨_, _, _, _, -, -, rfl⟩ :=
    h.event he <;> rfl

theorem RequestMove.event {q : RequestId} {pc : RequestPc} {act : RequestAct}
    {eff : Effect RequestPc} (h : RequestMove cfg rows nextId q pc act eff) {e : Event}
    (he : e ∈ eff.events) :
    e.speaker = none ∨ (∃ d, e = .claimed q d) ∨
    ∃ channel d copy comment ok, pc = .posting channel d copy ∧
      copy.comment cfg.unicode = .ok (some comment) ∧
      e = .posted (.request q) (some d) comment ok := by
  have hmark : ∀ d copy status, e ∈ markEvents d copy status (.human q) → e.speaker = none := by
    intro d copy status he
    rw [(markEvents_cases he).1]
    rfl
  cases h with
  | begin | beginRequeue | beginSweep | rejectWon | requeueWon | reply =>
    cases List.mem_singleton.mp he
    exact .inl rfl
  | claimWon channel d held row new =>
    obtain hclaim | hset := List.mem_append.mp he
    · exact .inr (.inl ⟨d, claimNext_events hclaim⟩)
    · cases List.mem_singleton.mp hset
      exact .inl rfl
  | claimLost channel d held => exact .inr (.inl ⟨d, claimNext_events he⟩)
  | load d won row =>
    cases won with
    | true => exact .inr (.inl ⟨d, List.mem_singleton.mp he⟩)
    | false => cases he
  | retryWon channel d copy row new =>
    obtain rfl | hset := List.mem_cons.mp he
    · exact .inr (.inl ⟨d, rfl⟩)
    · cases List.mem_singleton.mp hset
      exact .inl rfl
  | hand d copy row => exact .inl (hmark _ _ _ he)
  | mark channel d copy result row => exact .inl (hmark _ _ _ he)
  | post channel d copy outcome comment hcomment =>
    exact .inr (.inr ⟨channel, d, copy, comment, _, rfl, hcomment, List.mem_singleton.mp he⟩)
  | commit copies =>
    obtain ⟨c, -, rfl⟩ := List.mem_map.mp he
    exact .inl rfl
  | _ => cases he

theorem RequestMove.speaker {q : RequestId} {pc : RequestPc} {act : RequestAct}
    {eff : Effect RequestPc} (h : RequestMove cfg rows nextId q pc act eff) {e : Event}
    (he : e ∈ eff.events) : e.speaker = none ∨ e.speaker = some q := by
  obtain hnone | ⟨d, rfl⟩ | ⟨channel, d, copy, comment, ok, -, -, rfl⟩ := h.event he
  · exact .inl hnone
  · exact .inr rfl
  · exact .inr rfl

end

structure Paired (s : State) (q : RequestId) (d : DecisionId) : Prop where
  early : (s.requests q).early = true → s.claims q d = 0
  balance : s.claims q d = s.posts q d + ((s.requests q).isPosting d).toNat
  claims_le : s.claims q d ≤ 1

section
variable {cfg : Settings} {s t : State} {a : Step} {q : RequestId} {d : DecisionId}

theorem step_unvoiced (h : step cfg s a = some t) (hne : ∀ act, a ≠ .request q act) :
    t.requests q = s.requests q ∧ t.claims q d = s.claims q d ∧ t.posts q d = s.posts q d := by
  have hsilent : ∀ events : List Event, (∀ e ∈ events, e.speaker ≠ some q) →
      events.countP (Event.claimOf q d) = 0 ∧ events.countP (Event.postOf q d) = 0 := by
    intro events hevents
    constructor
    · exact List.countP_eq_zero.mpr fun e he hclaim => hevents e he (Event.claimOf_speaker hclaim)
    · exact List.countP_eq_zero.mpr fun e he hpost => hevents e he (Event.postOf_speaker hpost)
  cases a with
  | router r act =>
    obtain ⟨eff, hmove, rfl⟩ := step_router h
    obtain ⟨hclaims, hposts⟩ := hsilent eff.events fun e he => by
      rw [hmove.speaker he]
      simp
    exact ⟨rfl, by simp [State.claims, hclaims], by simp [State.posts, hposts]⟩
  | request i act =>
    obtain ⟨eff, hmove, rfl⟩ := step_request h
    have hi : q ≠ i := fun heq => hne act (by rw [heq])
    obtain ⟨hclaims, hposts⟩ := hsilent eff.events fun e he heq => by
      obtain hnone | hsome := hmove.speaker he
      · cases hnone.symm.trans heq
      · cases hsome.symm.trans heq
        exact hi rfl
    exact ⟨applyRequest_of_ne _ _ _ hi, by simp [State.claims, hclaims],
      by simp [State.posts, hposts]⟩

theorem Paired.step {base : DecisionId} (hs : Paired s q d) (hwf : WellFormed cfg s)
    (hin : InHand base s) (hd : base ≤ d) (hhandoff : cfg.handoffMode = false)
    (hok : s.gatedOnly d a = true) (h : step cfg s a = some t) : Paired t q d := by
  by_cases hact : ∃ act, a = .request q act
  · obtain ⟨act, rfl⟩ := hact
    obtain ⟨eff, hmove, rfl⟩ := step_request h
    have hcrash : act ≠ .crash := by
      rintro rfl
      cases hok
    have hcomment : ∀ channel copy, s.requests q = .posting channel d copy →
        ∃ comment, copy.comment cfg.unicode = .ok (some comment) := by
      intro channel copy hpc
      obtain ⟨row, hrow, hcontent⟩ := hwf.requests q (d, copy) (by simp [hpc, RequestPc.copies])
      obtain ⟨action, haction, hvalue⟩ := hin.actionable d row hd hrow
      have hsame : copy.action = row.action := congrArg (·.action) hcontent
      exact copy_comment_ne_none (hsame.trans hvalue) haction
    have hclaims : (s.applyRequest q eff).claims q d =
        eff.events.countP (Event.claimOf q d) + s.claims q d := by simp [State.claims]
    have hposts : (s.applyRequest q eff).posts q d =
        eff.events.countP (Event.postOf q d) + s.posts q d := by simp [State.posts]
    have hbalance := hs.balance
    have hle := hs.claims_le
    have hearly := hs.early
    cases hmove.voice hhandoff hcrash hcomment with
    | silent hnoclaim hnopost hposting hkept =>
      refine ⟨?_, ?_, ?_⟩
      · rw [applyRequest_self, hclaims, hnoclaim, Nat.zero_add]
        exact fun h => hearly (hkept h)
      · rw [applyRequest_self, hclaims, hposts, hnoclaim, hnopost, hposting]
        omega
      · omega
    | claims hone hnopost hbefore hafter hfirst hlate =>
      have hzero := hearly hfirst
      refine ⟨?_, ?_, ?_⟩
      · rw [applyRequest_self, hlate]
        exact fun h => by cases h
      · rw [hbefore] at hbalance
        rw [applyRequest_self, hclaims, hposts, hone, hnopost, hafter]
        simp only [Bool.toNat_true, Bool.toNat_false] at hbalance ⊢
        omega
      · omega
    | posts hnoclaim hone hbefore hafter hlate =>
      refine ⟨?_, ?_, ?_⟩
      · rw [applyRequest_self, hlate]
        exact fun h => by cases h
      · rw [hbefore] at hbalance
        rw [applyRequest_self, hclaims, hposts, hnoclaim, hone, hafter]
        simp only [Bool.toNat_true, Bool.toNat_false] at hbalance ⊢
        omega
      · omega
  · obtain ⟨hpc, hclaims, hposts⟩ := step_unvoiced (d := d) h fun act heq => hact ⟨act, heq⟩
    refine ⟨?_, ?_, ?_⟩
    · rw [hpc, hclaims]
      exact hs.early
    · rw [hpc, hclaims, hposts]
      exact hs.balance
    · rw [hclaims]
      exact hs.claims_le

end

theorem Event.eq_of_bodyOf {d : DecisionId} {e : Event} (h : e.bodyOf d = true) :
    ∃ actor comment ok, e = .posted actor (some d) comment ok := by
  cases e with
  | posted actor target comment ok =>
    cases target with
    | none => cases h
    | some j =>
      obtain rfl : j = d := of_decide_eq_true h
      exact ⟨actor, comment, ok, rfl⟩
  | _ => cases h

theorem copy_comment_body {u : Unicode} {copy : ReviewDecision} {comment : Comment}
    (h : copy.comment u = .ok (some comment)) : comment.body = copy.body := by
  unfold ReviewDecision.comment at h
  cases haction : Action.ofValue copy.action with
  | error e => simp [haction, bind, Except.bind] at h
  | ok action =>
    simp only [haction, bind, Except.bind] at h
    exact executeDecision_body h

section
variable {cfg : Settings} {s t : State} {a : Step} {d : DecisionId}

theorem step_bodies (h : step cfg s a = some t) : ∃ new, t.events = new ++ s.events ∧
    ∀ actor comment ok, .posted actor (some d) comment ok ∈ new → s.hold d actor = some .taken ∧
      ∀ q, actor = .request q → ∃ channel copy, s.requests q = .posting channel d copy ∧
        copy.comment cfg.unicode = .ok (some comment) := by
  cases a with
  | router r act =>
    obtain ⟨eff, hmove, rfl⟩ := step_router h
    refine ⟨eff.events, rfl, ?_⟩
    intro actor comment ok he
    obtain ⟨_, _, -, heq, -⟩ | ⟨_, _, _, heq⟩ | ⟨_, _, _, _, _, -, heq⟩ |
      ⟨run, target, made, _, hpc, -, heq⟩ := hmove.event he
    · cases heq
    · cases heq
    · cases heq
    · injection heq with hactor htarget
      subst hactor
      cases target with
      | none => cases htarget
      | some found =>
        cases htarget
        refine ⟨?_, fun q hq => by cases hq⟩
        simp [State.hold, hpc, RouterPc.hold]
  | request q act =>
    obtain ⟨eff, hmove, rfl⟩ := step_request h
    refine ⟨eff.events, rfl, ?_⟩
    intro actor comment ok he
    obtain hnone | ⟨i, heq⟩ | ⟨channel, i, copy, made, _, hpc, hmade, heq⟩ := hmove.event he
    · cases actor with
      | router r => cases hmove.event_router he
      | request i => cases hnone
    · cases heq
    · cases heq
      refine ⟨?_, ?_⟩
      · simp [State.hold, hpc, RequestPc.hold]
      · rintro _ ⟨⟩
        exact ⟨channel, copy, hpc, hmade⟩

end

section
variable {cfg : Settings} {ledger : Ledger} {s t : State} {d : DecisionId}

theorem Reachable.gatedLife (hd : ledger.nextId ≤ d)
    (h : (reviews cfg ledger).Reachable (fun s a => s.gatedOnly d a) s) :
    lives.Reachable Life.GatedOnly (s.life d) :=
  Reachable.life hd (fun _ _ _ _ hok henacts => henacts.gatedOnly hok) h

theorem Reachable.paired (hhandoff : cfg.handoffMode = false) (hd : ledger.nextId ≤ d)
    (h : (reviews cfg ledger).Reachable (fun s a => s.gatedOnly d a) s) (q : RequestId) :
    Paired s q d :=
  Reachable.invariant (I := fun u => Paired u q d)
    (fun _ hu => And.intro (Reachable.wellFormed hu) (Reachable.inHand hu))
    ⟨fun _ => rfl, rfl, Nat.zero_le _⟩
    (fun _ _ _ hj hok hstep hs => hs.step hj.1 hj.2 hd hhandoff hok hstep) h

def HumanBodies (s : State) (d : DecisionId) : Prop :=
  ∀ actor comment ok, .posted actor (some d) comment ok ∈ s.events →
    (∃ q, actor = .request q) ∧ ∃ row, s.rows d = some row ∧ comment.body = row.body

theorem HumanBodies.step {a : Step} (hs : HumanBodies s d) (hwf : WellFormed cfg s)
    (hfree : (s.life d).Free) (h : step cfg s a = some t) : HumanBodies t d := by
  intro actor comment ok he
  obtain ⟨new, hevents, hnew⟩ := step_bodies (d := d) h
  have hbody : (∃ q, actor = .request q) ∧ ∃ row, s.rows d = some row ∧ comment.body = row.body := by
    rw [hevents] at he
    obtain hin | hold := List.mem_append.mp he
    · obtain ⟨hhold, hcopy⟩ := hnew actor comment ok hin
      cases actor with
      | router r => cases (hfree r).symm.trans hhold
      | request q =>
        obtain ⟨channel, copy, hpc, hmade⟩ := hcopy q rfl
        obtain ⟨row, hrow, hcontent⟩ := hwf.requests q (d, copy) (by simp [hpc, RequestPc.copies])
        have hsame : copy.body = row.body := congrArg (·.body) hcontent
        exact ⟨⟨q, rfl⟩, row, hrow, (copy_comment_body hmade).trans hsame⟩
    · exact hs actor comment ok hold
  obtain ⟨hactor, row, hrow, hsame⟩ := hbody
  obtain ⟨updated, hupdated, hcontent⟩ := hwf.rows_persist h hrow
  have hkept : updated.body = row.body := congrArg (·.body) hcontent
  exact ⟨hactor, updated, hupdated, hsame.trans hkept.symm⟩

theorem Reachable.humanBodies (hd : ledger.nextId ≤ d)
    (h : (reviews cfg ledger).Reachable (fun s a => s.gatedOnly d a) s) : HumanBodies s d :=
  Reachable.invariant (I := fun u => HumanBodies u d)
    (fun _ hu => And.intro (Reachable.wellFormed hu) (Life.Reachable.free (Reachable.gatedLife hd hu)))
    (fun _ _ _ he => by cases he)
    (fun _ _ _ hj _ hstep hs => hs.step hj.1 hj.2 hstep) h

theorem final_silent (hd : ledger.nextId ≤ d)
    (h : (reviews cfg ledger).Reachable (fun s a => s.gatedOnly d a) s)
    (hrun : (reviews cfg ledger).Run (fun s a => s.gatedOnly d a) s t) {row : ReviewDecision}
    (hrow : s.rows d = some row) (hfinal : row.status.final = true) :
    (∃ new, t.rows d = some new ∧ new.status = row.status) ∧ t.bodies d = s.bodies d := by
  have hkeeps : (t.life d).status = some row.status ∧ t.bodies d = s.bodies d := by
    refine Run.invariant
      (I := fun u => (u.life d).status = some row.status ∧ u.bodies d = s.bodies d)
      (J := (reviews cfg ledger).Reachable (fun s a => s.gatedOnly d a))
      (fun u hu => Reachable.run h hu) ?_ hrun ⟨by simp [State.life, hrow], rfl⟩
    rintro u a v hu hok hstep ⟨hst, hsame⟩
    have hlife := Reachable.gatedLife hd hu
    have howned := Life.Reachable.gatedOwned hlife
    constructor
    · have hturn := step_turn (Reachable.wellFormed hu) (Reachable.gated hu) (Reachable.inHand hu)
        hd hstep
      obtain hquiet | ⟨act, henacts, hact⟩ := hturn
      · rw [hquiet]
        exact hst
      · have hkept := (henacts.gatedOnly hok).kept (Life.Reachable.free hlife)
        exact howned.final hkept hact hst hfinal
    · obtain ⟨new, hevents, hnew⟩ := step_bodies (d := d) hstep
      have hnone : new.countP (Event.bodyOf d) = 0 := by
        apply List.countP_eq_zero.mpr
        intro e he hbody
        obtain ⟨actor, comment, ok, rfl⟩ := Event.eq_of_bodyOf hbody
        obtain ⟨st, hst', hopen⟩ := (howned.holder (hnew actor comment ok he).1).2.2.status
        cases hst.symm.trans hst'
        cases hfinal.symm.trans hopen
      rw [← hsame, State.bodies, hevents, List.countP_append, hnone, Nat.zero_add]
      rfl
  obtain ⟨hst, hsame⟩ := hkeeps
  obtain ⟨new, hnew, hkept⟩ := Option.map_eq_some_iff.mp hst
  exact ⟨⟨new, hnew, hkept⟩, hsame⟩

/-- In every run in which a row only takes the gated branch, without a crash, a sweep or
hand-off: a request posts the stored body once for each "claimed" outcome, of which it
gets at most one; nobody else posts; a claim is won only when every earlier winner has
recorded its failure; GitHub accepts at most one post; and from a final row nothing is
posted and its status is never left. -/
theorem channels_exclusive (hhandoff : cfg.handoffMode = false) (hd : ledger.nextId ≤ d)
    (h : (reviews cfg ledger).Reachable (fun s a => s.gatedOnly d a) s) :
    (∀ q, s.claims q d = s.posts q d + ((s.requests q).isPosting d).toNat ∧ s.claims q d ≤ 1) ∧
    (∀ actor comment ok, .posted actor (some d) comment ok ∈ s.events →
      (∃ q, actor = .request q) ∧ ∃ row, s.rows d = some row ∧ comment.body = row.body) ∧
    (∀ a t q, s.gatedOnly d a = true → step cfg s a = some t →
      t.history d = (.approved, .human q) :: s.history d →
      ∀ q', (.approved, .human q') ∈ s.history d → (.failed, .human q') ∈ s.history d) ∧
    s.accepted d ≤ 1 ∧
    ∀ t row, (reviews cfg ledger).Run (fun s a => s.gatedOnly d a) s t → s.rows d = some row →
      row.status.final = true →
      (∃ new, t.rows d = some new ∧ new.status = row.status) ∧ t.bodies d = s.bodies d := by
  have hlife := Reachable.gatedLife hd h
  refine ⟨?_, Reachable.humanBodies hd h, ?_, (Life.Reachable.gatedOwned hlife).accepted_le, ?_⟩
  · intro q
    have hpaired := Reachable.paired hhandoff hd h q
    exact ⟨hpaired.balance, hpaired.claims_le⟩
  · intro a t q hok hstep hwon q' hq'
    have hturn := step_turn (Reachable.wellFormed h) (Reachable.gated h) (Reachable.inHand h) hd
      hstep
    have hrecorded := Life.Reachable.recorded hlife
    obtain hquiet | ⟨act, -, hact⟩ := hturn
    · have hsame : t.history d = s.history d := congrArg Life.history hquiet
      rw [hsame] at hwon
      exact absurd hwon.symm (List.cons_ne_self _ _)
    · obtain hst | hst := Life.approved_by_take hact hwon
      · exact hrecorded.settled hst rfl q' hq'
      · exact hrecorded.settled hst rfl q' hq'
  · intro t row hrun hrow hfinal
    exact final_silent hd h hrun hrow hfinal

end

/-- An approval is refused by GitHub; a second one has lost its first statement. -/
def secondRun : List Step :=
  routerRun 0 [.start (.sample "high") true, .select, .insert] ++
    requestRun 0 [.begin .approve .ops 0, .claim, .load, .post (.answered refused), .mark] ++
    requestRun 1 [.begin .approve .ops 0, .claim, .load]

def secondState : State := (reviews .small .empty).after secondRun (by decide)

def secondClaimed : State := (step .small secondState (.request 1 .retry)).get (by decide)

theorem channels_exclusive_second :
    secondState.claims 0 0 =
        secondState.posts 0 0 + ((secondState.requests 0).isPosting 0).toNat ∧
      (.failed, .human 0) ∈ secondState.history 0 := by
  have hreach : (reviews .small .empty).Reachable (fun s a => s.gatedOnly 0 a) secondState :=
    Reachable.after (by decide) (by decide)
  obtain ⟨hpaired, -, hwon, -⟩ := channels_exclusive rfl (Nat.zero_le 0) hreach
  refine ⟨(hpaired 0).1, ?_⟩
  exact hwon (.request 1 .retry) secondClaimed 1 (by decide) (Option.some_get _).symm (by decide) 0
    (by decide)

end AutoPR.Routing
