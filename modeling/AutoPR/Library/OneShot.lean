import AutoPR.Library.Transition

/-! A permit for an external effect that must not happen twice. It has one owner at
a time; the owner uses it at most once, and only an unused permit, or one whose use
failed, may be put back for the next owner. The counts of uses and of failures bound
what the outside world has seen. -/
namespace AutoPR.OneShot
open Transition

variable {ω : Type*} [DecidableEq ω]

inductive Phase (ω : Type*) where
  | free
  | held (owner : ω)
  | failed (owner : ω)
  | closed
deriving DecidableEq

inductive Stake where
  | holding
  | failed
deriving DecidableEq

def Phase.stake : Phase ω → ω → Option Stake
  | .held owner, o => if o = owner then some .holding else none
  | .failed owner, o => if o = owner then some .failed else none
  | .free, _ | .closed, _ => none

structure Permit (ω : Type*) where
  phase : Phase ω := .free
  uses : Nat := 0
  failures : Nat := 0

inductive Act (ω : Type*) where
  | take (owner : ω)
  | succeed
  | fail
  | putBack
  | close

def Permit.step (p : Permit ω) : Act ω → Option (Permit ω)
  | .take owner =>
      match p.phase with
      | .free => some { p with phase := .held owner }
      | _ => none
  | .succeed =>
      match p.phase with
      | .held _ => some { p with phase := .closed, uses := p.uses + 1 }
      | _ => none
  | .fail =>
      match p.phase with
      | .held owner => some ⟨.failed owner, p.uses + 1, p.failures + 1⟩
      | _ => none
  | .putBack =>
      match p.phase with
      | .held _ | .failed _ => some { p with phase := .free }
      | _ => none
  | .close => some { p with phase := .closed }

def permit (ω : Type*) : System (Permit ω) (Act ω) where
  init := {}
  step := Permit.step

/-- At most one use has not failed, and none while the permit is open. -/
structure Sound (p : Permit ω) : Prop where
  failures_le : p.failures ≤ p.uses
  uses_le : p.uses ≤ p.failures + 1
  uses_open : p.phase ≠ .closed → p.uses = p.failures

omit [DecidableEq ω] in
theorem Sound.step {p q : Permit ω} {a : Act ω} (h : p.step a = some q) (hs : Sound p) :
    Sound q := by
  have hle := hs.failures_le
  have hopen := hs.uses_open
  cases a with
  | close =>
    cases h
    exact ⟨hle, hs.uses_le, fun hne => absurd rfl hne⟩
  | take owner =>
    cases hp : p.phase <;> simp only [Permit.step, hp, reduceCtorEq] at h
    cases h
    exact ⟨hle, hs.uses_le, fun _ => hopen (by simp [hp])⟩
  | putBack =>
    cases hp : p.phase <;> simp only [Permit.step, hp, reduceCtorEq] at h
    all_goals
      cases h
      exact ⟨hle, hs.uses_le, fun _ => hopen (by simp [hp])⟩
  | succeed =>
    cases hp : p.phase <;> simp only [Permit.step, hp, reduceCtorEq] at h
    cases h
    have heq : p.uses = p.failures := hopen (by simp [hp])
    refine ⟨?_, ?_, fun hne => absurd rfl hne⟩
    · show p.failures ≤ p.uses + 1
      omega
    · show p.uses + 1 ≤ p.failures + 1
      omega
  | fail =>
    cases hp : p.phase <;> simp only [Permit.step, hp, reduceCtorEq] at h
    cases h
    have heq : p.uses = p.failures := hopen (by simp [hp])
    refine ⟨?_, ?_, fun _ => ?_⟩
    · show p.failures + 1 ≤ p.uses + 1
      omega
    · show p.uses + 1 ≤ p.failures + 1 + 1
      omega
    · show p.uses + 1 = p.failures + 1
      omega

omit [DecidableEq ω] in
theorem Reachable.sound {p : Permit ω} (h : (permit ω).Reachable anyStep p) : Sound p :=
  Reachable.invariant (J := fun _ => True) (fun _ _ => trivial)
    ⟨Nat.le_refl _, Nat.zero_le _, fun _ => rfl⟩
    (fun _ _ _ _ _ hstep hs => hs.step hstep) h

section
omit [DecidableEq ω]
variable {p : Permit ω} {owner : ω}

theorem Run.take (hp : p.phase = .free) :
    (permit ω).Run anyStep p { p with phase := .held owner } :=
  Run.single (a := .take owner) trivial (by simp [permit, Permit.step, hp])

theorem Run.succeed (hp : p.phase = .held owner) :
    (permit ω).Run anyStep p { p with phase := .closed, uses := p.uses + 1 } :=
  Run.single (a := .succeed) trivial (by simp [permit, Permit.step, hp])

theorem Run.fail (hp : p.phase = .held owner) :
    (permit ω).Run anyStep p ⟨.failed owner, p.uses + 1, p.failures + 1⟩ :=
  Run.single (a := .fail) trivial (by simp [permit, Permit.step, hp])

theorem Run.putBack (hp : p.phase = .held owner ∨ p.phase = .failed owner) :
    (permit ω).Run anyStep p { p with phase := .free } := by
  apply Run.single (a := .putBack) trivial
  obtain hp | hp := hp <;> simp [permit, Permit.step, hp]

theorem Run.close : (permit ω).Run anyStep p { p with phase := .closed } :=
  Run.single (a := .close) trivial rfl

end

theorem Phase.stake_unique {phase : Phase ω} {o o' : ω} (h : (phase.stake o).isSome)
    (h' : (phase.stake o').isSome) : o = o' := by
  cases phase with
  | free | closed => cases h
  | held owner | failed owner =>
    simp only [Phase.stake] at h h'
    split at h <;> split at h' <;> simp_all

@[simp] theorem Phase.stake_free (o : ω) : (Phase.free : Phase ω).stake o = none := rfl

@[simp] theorem Phase.stake_closed (o : ω) : (Phase.closed : Phase ω).stake o = none := rfl

@[simp] theorem Phase.stake_held (o : ω) : (Phase.held o).stake o = some .holding := by
  simp [Phase.stake]

@[simp] theorem Phase.stake_failed (o : ω) : (Phase.failed o).stake o = some .failed := by
  simp [Phase.stake]

theorem Phase.stake_of_ne {phase : Phase ω} {o i : ω} (h : phase.stake o ≠ none) (hne : i ≠ o) :
    phase.stake i = none := by
  cases hi : phase.stake i with
  | none => rfl
  | some stake =>
    have hsome : (phase.stake i).isSome := by rw [hi]; rfl
    exact absurd (Phase.stake_unique hsome (Option.isSome_iff_ne_none.mpr h)) hne

theorem Phase.eq_held {phase : Phase ω} {o : ω} (h : phase.stake o = some .holding) :
    phase = .held o := by
  cases phase with
  | free | closed => cases h
  | held owner =>
    simp only [Phase.stake] at h
    split at h
    · rename_i heq
      rw [heq]
    · cases h
  | failed owner =>
    simp only [Phase.stake] at h
    split at h <;> cases h

theorem Phase.eq_failed {phase : Phase ω} {o : ω} (h : phase.stake o = some .failed) :
    phase = .failed o := by
  cases phase with
  | free | closed => cases h
  | failed owner =>
    simp only [Phase.stake] at h
    split at h
    · rename_i heq
      rw [heq]
    · cases h
  | held owner =>
    simp only [Phase.stake] at h
    split at h <;> cases h

end AutoPR.OneShot
