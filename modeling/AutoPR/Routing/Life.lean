import AutoPR.Library.Transition
import AutoPR.Routing.Router

/-! The life of one decision row, without what its actors compute: who has taken it
for a post and how far the post is, who assigned its status, and how many of its
posts GitHub has accepted. The laws of ownership are proved here. -/
namespace AutoPR.Routing
open Transition

inductive Hold where
  | taken
  | accepted
  | refused
deriving DecidableEq

/-- The status that the holder will commit; a hand-off commits without a post. -/
def Hold.mark : Hold → DecisionStatus
  | .taken | .accepted => .executed
  | .refused => .failed

def Hold.posts : Hold → Nat
  | .accepted => 1
  | .taken | .refused => 0

def Actor.setter : Actor → Setter
  | .router r => .auto r
  | .request q => .human q

structure Life where
  status : Option DecisionStatus := none
  /-- The committed assignments of the status, newest first. -/
  history : List (DecisionStatus × Setter) := []
  hold : Actor → Option Hold := fun _ => none
  accepted : Nat := 0

namespace Life

def hand (l : Life) (o : Actor) (hold : Option Hold) : Life :=
  { l with hold := Function.update l.hold o hold }

def assign (l : Life) (status : DecisionStatus) (setter : Setter) : Life :=
  { l with status := some status, history := (status, setter) :: l.history }

inductive Act where
  /-- A router run inserts the row, and takes it in the auto path. -/
  | create (r : RouterId) (auto : Bool)
  | pickUp (r : RouterId)
  | take (q : RequestId)
  | reject (q : RequestId)
  | requeue (setter : Setter)
  | post (o : Actor) (ok : Bool)
  | mark (o : Actor)
  /-- The holder ends without assigning a status. -/
  | letGo (o : Actor)
  | sweep (q : RequestId)

def step (l : Life) : Act → Option Life
  | .create r auto =>
      if l.status = none then
        some ((l.assign .pending (if auto then .auto r else .gated r)).hand (.router r)
          (if auto then some .taken else none))
      else none
  | .pickUp r =>
      if l.status = some .failed then some (l.hand (.router r) (some .taken)) else none
  | .take q =>
      if l.status = some .pending ∨ l.status = some .failed then
        some ((l.assign .approved (.human q)).hand (.request q) (some .taken))
      else none
  | .reject q =>
      if l.status = some .pending then some (l.assign .rejected (.human q)) else none
  | .requeue setter =>
      if l.status = some .failed then some (l.assign .pending setter) else none
  | .post o ok =>
      if l.hold o = some .taken then
        some ({ l with accepted := l.accepted + ok.toNat }.hand o
          (some (if ok then .accepted else .refused)))
      else none
  | .mark o => (l.hold o).map fun hold => (l.assign hold.mark o.setter).hand o none
  | .letGo o => if l.hold o = none then none else some (l.hand o none)
  | .sweep q => if l.status = none then none else some (l.assign .failed (.sweep q))

end Life

def lives : System Life Life.Act where
  init := {}
  step := Life.step

namespace Life

/-- No router run is between taking the row and committing its outcome. -/
def Free (l : Life) : Prop := ∀ r, l.hold (.router r) = none

/-- The row that a holder has in its hands: of an auto run one that an auto run left
pending or failed, of a request one that it has approved itself. -/
def RowOf (l : Life) : Actor → Prop
  | .router _ => ∃ st i, l.status = some st ∧ st.takeable = true ∧
      l.history.head? = some (st, .auto i)
  | .request q => l.status = some .approved ∧ l.history.head? = some (.approved, .human q)

/-- At most one actor holds the row, and GitHub has accepted at most one post. -/
inductive Owned (l : Life) : Prop
  | vacant (hnone : ∀ o, l.hold o = none) (hle : l.accepted ≤ 1)
      (hspent : l.accepted = 1 → ∃ st, l.status = some st ∧ st.takeable = false)
  | held (o : Actor) (hold : Hold) (hself : l.hold o = some hold)
      (hothers : ∀ o', o' ≠ o → l.hold o' = none) (hposts : l.accepted = hold.posts)
      (hrow : l.RowOf o)

/-- The steps that respect an owner: a run picks up only what an auto run left
failed, nobody takes the row from a run that is posting it, no run is lost between
an accepted post and its mark, and the sweep keeps to abandoned rows. -/
def Kept (l : Life) : Act → Prop
  | .pickUp _ => l.Free ∧ ∃ i, l.history.head? = some (.failed, .auto i)
  | .take _ | .reject _ | .requeue _ => l.Free
  | .letGo (.router r) => l.hold (.router r) ≠ some .accepted
  | .sweep _ => (∀ o, l.hold o = none) ∧ l.accepted = 0 ∧
      ∀ st, l.status = some st → st.final = false
  | .create _ _ | .post _ _ | .mark _ | .letGo (.request _) => True

variable {l l' : Life} {a : Act}

theorem RowOf.status {o : Actor} (h : l.RowOf o) :
    ∃ st, l.status = some st ∧ st.final = false := by
  cases o with
  | router r =>
    obtain ⟨st, i, hst, htakeable, -⟩ := h
    refine ⟨st, hst, ?_⟩
    cases st <;> first | rfl | cases htakeable
  | request q => exact ⟨.approved, h.1, rfl⟩

theorem Owned.holder (h : Owned l) {o : Actor} {hold : Hold} (ho : l.hold o = some hold) :
    (∀ o', o' ≠ o → l.hold o' = none) ∧ l.accepted = hold.posts ∧ l.RowOf o := by
  cases h with
  | vacant hnone => cases (hnone o).symm.trans ho
  | held o' hold' hself hothers hposts hrow =>
    have heq : o = o' := by
      by_contra hne
      cases (hothers o hne).symm.trans ho
    subst heq
    cases hself.symm.trans ho
    exact ⟨hothers, hposts, hrow⟩

theorem Owned.untaken (h : Owned l) (hfree : l.Free) {st : DecisionStatus}
    (hst : l.status = some st) (htakeable : st.takeable = true) :
    (∀ o, l.hold o = none) ∧ l.accepted = 0 := by
  cases h with
  | vacant hnone hle hspent =>
    refine ⟨hnone, ?_⟩
    by_contra hne
    obtain ⟨st', hst', hnot⟩ := hspent (by omega)
    cases hst.symm.trans hst'
    cases htakeable.symm.trans hnot
  | held o hold hself hothers hposts hrow =>
    cases o with
    | router r => cases (hfree r).symm.trans hself
    | request q =>
      cases hst.symm.trans hrow.1
      cases htakeable

theorem Owned.unborn (h : Owned l) (hst : l.status = none) :
    (∀ o, l.hold o = none) ∧ l.accepted = 0 := by
  cases h with
  | vacant hnone hle hspent =>
    refine ⟨hnone, ?_⟩
    by_contra hne
    obtain ⟨st, hsome, -⟩ := hspent (by omega)
    cases hst.symm.trans hsome
  | held o hold hself hothers hposts hrow =>
    obtain ⟨st, hsome, -⟩ := hrow.status
    cases hst.symm.trans hsome

theorem Owned.accepted_le (h : Owned l) : l.accepted ≤ 1 := by
  cases h with
  | vacant hnone hle => exact hle
  | held o hold hself hothers hposts hrow =>
    rw [hposts]
    cases hold <;> decide

theorem Owned.take (hnone : ∀ o, l.hold o = none) (haccepted : l.accepted = 0) {o : Actor}
    (hrow : l.RowOf o) : Owned (l.hand o (some .taken)) := by
  refine .held o .taken (by simp [hand]) ?_ haccepted ?_
  · intro o' hne
    simp [hand, hne, hnone]
  · cases o <;> exact hrow

theorem Owned.giveUp {o : Actor} (hothers : ∀ o', o' ≠ o → l.hold o' = none)
    (hle : l.accepted ≤ 1)
    (hspent : l.accepted = 1 → ∃ st, l.status = some st ∧ st.takeable = false) :
    Owned (l.hand o none) := by
  refine .vacant ?_ hle hspent
  intro o'
  by_cases heq : o' = o
  · simp [hand, heq]
  · simp [hand, heq, hothers o' heq]

theorem Owned.assign (hnone : ∀ o, l.hold o = none) (haccepted : l.accepted = 0)
    (status : DecisionStatus) (setter : Setter) : Owned (l.assign status setter) := by
  have hzero : (l.assign status setter).accepted = 0 := haccepted
  exact .vacant hnone (by omega) (by omega)

theorem Owned.step (h : Owned l) (hkept : l.Kept a) (hstep : l.step a = some l') : Owned l' := by
  cases a with
  | create r auto =>
    simp only [Life.step, Option.ite_none_right_eq_some, Option.some.injEq] at hstep
    obtain ⟨hst, rfl⟩ := hstep
    obtain ⟨hnone, haccepted⟩ := h.unborn hst
    cases auto with
    | true =>
      have hrow : (l.assign .pending (.auto r)).RowOf (.router r) := ⟨.pending, r, rfl, rfl, rfl⟩
      refine Owned.take ?_ ?_ hrow
      · exact hnone
      · exact haccepted
    | false =>
      have hzero : (l.assign .pending (.gated r)).accepted = 0 := haccepted
      exact Owned.giveUp (fun o' _ => hnone o') (by simp [hzero]) (by simp [hzero])
  | pickUp r =>
    simp only [Life.step, Option.ite_none_right_eq_some, Option.some.injEq] at hstep
    obtain ⟨hst, rfl⟩ := hstep
    obtain ⟨hfree, i, hhead⟩ := hkept
    obtain ⟨hnone, haccepted⟩ := h.untaken hfree hst rfl
    have hrow : l.RowOf (.router r) := ⟨.failed, i, hst, rfl, hhead⟩
    exact Owned.take hnone haccepted hrow
  | take q =>
    simp only [Life.step, Option.ite_none_right_eq_some, Option.some.injEq] at hstep
    obtain ⟨hst, rfl⟩ := hstep
    obtain ⟨hnone, haccepted⟩ : (∀ o, l.hold o = none) ∧ l.accepted = 0 := by
      obtain hst | hst := hst
      · exact h.untaken hkept hst rfl
      · exact h.untaken hkept hst rfl
    have hrow : (l.assign .approved (.human q)).RowOf (.request q) := ⟨rfl, rfl⟩
    refine Owned.take ?_ ?_ hrow
    · exact hnone
    · exact haccepted
  | reject q | requeue setter =>
    simp only [Life.step, Option.ite_none_right_eq_some, Option.some.injEq] at hstep
    obtain ⟨hst, rfl⟩ := hstep
    obtain ⟨hnone, haccepted⟩ := h.untaken hkept hst rfl
    exact Owned.assign hnone haccepted _ _
  | post o ok =>
    simp only [Life.step, Option.ite_none_right_eq_some, Option.some.injEq] at hstep
    obtain ⟨hhold, rfl⟩ := hstep
    obtain ⟨hothers, hposts, hrow⟩ := h.holder hhold
    refine .held o (if ok then .accepted else .refused) (by simp [hand]) ?_ ?_ ?_
    · intro o' hne
      simp [hand, hne, hothers o' hne]
    · cases ok <;> simp [hand, hposts, Hold.posts]
    · cases o <;> exact hrow
  | mark o =>
    simp only [Life.step, Option.map_eq_some_iff] at hstep
    obtain ⟨hold, hhold, rfl⟩ := hstep
    obtain ⟨hothers, hposts, -⟩ := h.holder hhold
    refine Owned.giveUp hothers ?_ ?_
    · exact h.accepted_le
    · intro hone
      cases hold with
      | accepted => exact ⟨.executed, rfl, rfl⟩
      | taken | refused => cases hposts.symm.trans hone
  | letGo o =>
    simp only [Life.step, Option.ite_none_left_eq_some, Option.some.injEq] at hstep
    obtain ⟨hhold, rfl⟩ := hstep
    obtain ⟨hold, hhold⟩ := Option.ne_none_iff_exists'.mp hhold
    obtain ⟨hothers, hposts, hrow⟩ := h.holder hhold
    refine Owned.giveUp hothers h.accepted_le ?_
    intro hone
    cases o with
    | request q => exact ⟨.approved, hrow.1, rfl⟩
    | router r =>
      cases hold with
      | accepted => exact absurd hhold hkept
      | taken | refused => cases hposts.symm.trans hone
  | sweep q =>
    simp only [Life.step, Option.ite_none_left_eq_some, Option.some.injEq] at hstep
    obtain ⟨-, rfl⟩ := hstep
    exact Owned.assign hkept.1 hkept.2.1 _ _

theorem Owned.final (h : Owned l) (hkept : l.Kept a) (hstep : l.step a = some l')
    {st : DecisionStatus} (hst : l.status = some st) (hfinal : st.final = true) :
    l'.status = some st := by
  have hunheld : ∀ o, l.hold o = none := by
    intro o
    by_contra hne
    obtain ⟨hold, hhold⟩ := Option.ne_none_iff_exists'.mp hne
    obtain ⟨st', hst', hnot⟩ := (h.holder hhold).2.2.status
    cases hst.symm.trans hst'
    cases hfinal.symm.trans hnot
  cases a with
  | create r auto => simp [Life.step, hst] at hstep
  | pickUp r =>
    simp only [Life.step, Option.ite_none_right_eq_some, Option.some.injEq] at hstep
    rw [← hstep.2]
    exact hst
  | take q =>
    simp only [Life.step, hst, Option.ite_none_right_eq_some, Option.some.injEq] at hstep
    obtain ⟨rfl | rfl, -⟩ := hstep <;> cases hfinal
  | reject q | requeue setter =>
    simp only [Life.step, hst, Option.ite_none_right_eq_some, Option.some.injEq] at hstep
    obtain ⟨rfl, -⟩ := hstep
    cases hfinal
  | post o ok | mark o | letGo o => simp [Life.step, hunheld] at hstep
  | sweep q => cases hfinal.symm.trans (hkept.2.2 st hst)

theorem Reachable.owned (h : lives.Reachable Kept l) : Owned l :=
  Reachable.invariant (J := fun _ => True) (fun _ _ => trivial)
    (.vacant (fun _ => rfl) (Nat.zero_le _) (fun hone => by cases hone))
    (fun _ _ _ _ hkept hstep hs => hs.step hkept hstep) h

def GatedOnly (_ : Life) : Act → Prop
  | .create _ auto => auto = false
  | .pickUp _ | .sweep _ => False
  | .take _ | .reject _ | .requeue _ | .post _ _ | .mark _ | .letGo _ => True

theorem hand_free (hfree : l.Free) {o : Actor} {hold : Option Hold}
    (ho : ∀ r, o = .router r → hold = none) : (l.hand o hold).Free := by
  intro r
  by_cases heq : .router r = o
  · simp [hand, ← heq, ho r heq.symm]
  · simpa [hand, heq] using hfree r

theorem Free.step (hfree : l.Free) (hgated : l.GatedOnly a) (hstep : l.step a = some l') :
    l'.Free := by
  have hself : ∀ o hold, l.hold o = some hold → ∀ r, o ≠ .router r := by
    intro o hold ho r heq
    rw [heq, hfree r] at ho
    cases ho
  cases a with
  | create r auto =>
    cases hgated
    simp only [Life.step, Option.ite_none_right_eq_some, Option.some.injEq] at hstep
    obtain ⟨-, rfl⟩ := hstep
    exact hand_free hfree fun _ _ => rfl
  | pickUp r | sweep q => cases hgated
  | take q =>
    simp only [Life.step, Option.ite_none_right_eq_some, Option.some.injEq] at hstep
    obtain ⟨-, rfl⟩ := hstep
    exact hand_free hfree fun r heq => by cases heq
  | reject q | requeue setter =>
    simp only [Life.step, Option.ite_none_right_eq_some, Option.some.injEq] at hstep
    obtain ⟨-, rfl⟩ := hstep
    exact hfree
  | post o ok =>
    simp only [Life.step, Option.ite_none_right_eq_some, Option.some.injEq] at hstep
    obtain ⟨hhold, rfl⟩ := hstep
    exact hand_free hfree fun r heq => absurd heq (hself o _ hhold r)
  | mark o =>
    simp only [Life.step, Option.map_eq_some_iff] at hstep
    obtain ⟨hold, -, rfl⟩ := hstep
    exact hand_free hfree fun _ _ => rfl
  | letGo o =>
    simp only [Life.step, Option.ite_none_left_eq_some, Option.some.injEq] at hstep
    obtain ⟨-, rfl⟩ := hstep
    exact hand_free hfree fun _ _ => rfl

theorem GatedOnly.kept (hgated : l.GatedOnly a) (hfree : l.Free) : l.Kept a := by
  cases a with
  | pickUp r | sweep q => cases hgated
  | letGo o =>
    cases o with
    | router r =>
      intro hhold
      cases (hfree r).symm.trans hhold
    | request q => trivial
  | take q | reject q | requeue setter => exact hfree
  | create r auto | post o ok | mark o => trivial

/-- Whoever has approved the row has recorded its failure, or has executed the row, or
is executing it now. -/
def Recorded (l : Life) : Prop :=
  ∀ q, (.approved, .human q) ∈ l.history → (.failed, .human q) ∈ l.history ∨
    l.status = some .executed ∨
    (l.status = some .approved ∧ l.history.head? = some (.approved, .human q))

theorem Recorded.settled (h : l.Recorded) {st : DecisionStatus} (hst : l.status = some st)
    (htakeable : st.takeable = true) (q : RequestId) (hq : (.approved, .human q) ∈ l.history) :
    (.failed, .human q) ∈ l.history := by
  obtain hfailed | hexecuted | ⟨happroved, -⟩ := h q hq
  · exact hfailed
  · cases hst.symm.trans hexecuted
    cases htakeable
  · cases hst.symm.trans happroved
    cases htakeable

theorem Recorded.assign (hall : ∀ q, (.approved, .human q) ∈ l.history →
      (.failed, .human q) ∈ l.history) (status : DecisionStatus) (setter : Setter)
    (hne : status ≠ .approved) : (l.assign status setter).Recorded := by
  intro q hq
  obtain heq | hold := List.mem_cons.mp hq
  · cases heq
    exact absurd rfl hne
  · exact .inl (List.mem_cons_of_mem _ (hall q hold))

theorem Recorded.step (h : l.Recorded) (howned : Owned l) (hgated : l.GatedOnly a)
    (hstep : l.step a = some l') : l'.Recorded := by
  cases a with
  | create r auto =>
    simp only [Life.step, Option.ite_none_right_eq_some, Option.some.injEq] at hstep
    obtain ⟨hst, rfl⟩ := hstep
    have hall : ∀ q, (.approved, .human q) ∈ l.history → (.failed, .human q) ∈ l.history := by
      intro q hq
      obtain hfailed | hexecuted | ⟨happroved, -⟩ := h q hq
      · exact hfailed
      · cases hst.symm.trans hexecuted
      · cases hst.symm.trans happroved
    exact Recorded.assign hall .pending _ (by simp)
  | pickUp r | sweep q => cases hgated
  | take q =>
    simp only [Life.step, Option.ite_none_right_eq_some, Option.some.injEq] at hstep
    obtain ⟨hst, rfl⟩ := hstep
    intro i hi
    obtain heq | hold := List.mem_cons.mp hi
    · cases heq
      exact .inr (.inr ⟨rfl, rfl⟩)
    · left
      apply List.mem_cons_of_mem
      obtain hst | hst := hst
      · exact h.settled hst rfl i hold
      · exact h.settled hst rfl i hold
  | reject q =>
    simp only [Life.step, Option.ite_none_right_eq_some, Option.some.injEq] at hstep
    obtain ⟨hst, rfl⟩ := hstep
    exact Recorded.assign (h.settled hst rfl) .rejected _ (by simp)
  | requeue setter =>
    simp only [Life.step, Option.ite_none_right_eq_some, Option.some.injEq] at hstep
    obtain ⟨hst, rfl⟩ := hstep
    exact Recorded.assign (h.settled hst rfl) .pending _ (by simp)
  | post o ok =>
    simp only [Life.step, Option.ite_none_right_eq_some, Option.some.injEq] at hstep
    obtain ⟨-, rfl⟩ := hstep
    exact h
  | mark o =>
    simp only [Life.step, Option.map_eq_some_iff] at hstep
    obtain ⟨hold, hhold, rfl⟩ := hstep
    obtain ⟨-, -, hrow⟩ := howned.holder hhold
    cases hold with
    | taken | accepted => exact fun _ _ => .inr (.inl rfl)
    | refused =>
      cases o with
      | router r =>
        obtain ⟨st, i, hst, htakeable, -⟩ := hrow
        exact Recorded.assign (h.settled hst htakeable) .failed _ (by simp)
      | request q =>
        intro i hi
        left
        obtain heq | hin := List.mem_cons.mp hi
        · cases heq
        · obtain hfailed | hexecuted | ⟨-, hhead⟩ := h i hin
          · exact List.mem_cons_of_mem _ hfailed
          · cases hrow.1.symm.trans hexecuted
          · cases hrow.2.symm.trans hhead
            exact List.mem_cons_self
  | letGo o =>
    simp only [Life.step, Option.ite_none_left_eq_some, Option.some.injEq] at hstep
    obtain ⟨-, rfl⟩ := hstep
    exact h

theorem approved_by_take {q : RequestId} (hstep : l.step a = some l')
    (hwon : l'.history = (.approved, .human q) :: l.history) :
    l.status = some .pending ∨ l.status = some .failed := by
  cases a with
  | take i =>
    simp only [Life.step, Option.ite_none_right_eq_some, Option.some.injEq] at hstep
    exact hstep.1
  | create r auto | reject i | requeue setter =>
    simp only [Life.step, Option.ite_none_right_eq_some, Option.some.injEq] at hstep
    obtain ⟨-, rfl⟩ := hstep
    cases hwon
  | pickUp r | post o ok =>
    simp only [Life.step, Option.ite_none_right_eq_some, Option.some.injEq] at hstep
    obtain ⟨-, rfl⟩ := hstep
    exact absurd hwon.symm (List.cons_ne_self _ _)
  | mark o =>
    simp only [Life.step, Option.map_eq_some_iff] at hstep
    obtain ⟨hold, -, rfl⟩ := hstep
    cases hold <;> cases hwon
  | letGo o =>
    simp only [Life.step, Option.ite_none_left_eq_some, Option.some.injEq] at hstep
    obtain ⟨-, rfl⟩ := hstep
    exact absurd hwon.symm (List.cons_ne_self _ _)
  | sweep i =>
    simp only [Life.step, Option.ite_none_left_eq_some, Option.some.injEq] at hstep
    obtain ⟨-, rfl⟩ := hstep
    cases hwon

theorem Reachable.free (h : lives.Reachable GatedOnly l) : l.Free :=
  Reachable.invariant (J := fun _ => True) (fun _ _ => trivial) (fun _ => rfl)
    (fun _ _ _ _ hgated hstep hs => hs.step hgated hstep) h

theorem Reachable.gatedOwned (h : lives.Reachable GatedOnly l) : Owned l :=
  Reachable.invariant (fun _ => Reachable.free)
    (.vacant (fun _ => rfl) (Nat.zero_le _) (fun hone => by cases hone))
    (fun _ _ _ hfree hgated hstep hs => hs.step (hgated.kept hfree) hstep) h

theorem Reachable.recorded (h : lives.Reachable GatedOnly l) : l.Recorded :=
  Reachable.invariant (fun _ => Reachable.gatedOwned) (fun _ hq => by cases hq)
    (fun _ _ _ howned hgated hstep hs => hs.step howned hgated hstep) h

end Life

end AutoPR.Routing
