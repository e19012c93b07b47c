import Mathlib.Data.Nat.Notation

/-! Graphs of nodes that hand a state to each other. Each node takes an answer from outside,
adds to the state or raises, and the state decides about the edge that is followed. -/
namespace AutoPR.Workflow

structure Graph (ν σ α : Type*) where
  entry : σ → ν
  /-- The state after the node; `none` when it raises. -/
  run : ν → σ → α → Option σ
  /-- The edge out of a node; `none` leads to the end. -/
  next : ν → σ → Option ν

inductive Stage (ν : Type*) where
  | due (n : ν)
  | ended
  | raised
deriving DecidableEq

structure Walk (ν σ : Type*) where
  state : σ
  stage : Stage ν
  /-- The nodes that have run, in order. -/
  visited : List ν

variable {ν σ α : Type*} (g : Graph ν σ α)

def Graph.start (s : σ) : Walk ν σ := ⟨s, .due (g.entry s), []⟩

/-- The stage after a node. -/
def Graph.after (n : ν) (s : σ) : Stage ν :=
  match g.next n s with
  | some m => .due m
  | none => .ended

def Graph.visit (n : ν) (w : Walk ν σ) (a : α) : Walk ν σ :=
  match g.run n w.state a with
  | some s => ⟨s, g.after n s, w.visited ++ [n]⟩
  | none => ⟨w.state, .raised, w.visited ++ [n]⟩

def Graph.advance (w : Walk ν σ) (a : α) : Walk ν σ :=
  match w.stage with
  | .due n => g.visit n w a
  | .ended | .raised => w

def Graph.walk (s : σ) (answers : ℕ → α) : ℕ → Walk ν σ
  | 0 => g.start s
  | k + 1 => g.advance (Graph.walk s answers k) (answers k)

variable {g} {s : σ} {answers : ℕ → α} {k : ℕ} {n : ν}

theorem Graph.visit_of_run {w : Walk ν σ} {a : α} {t : σ} (h : g.run n w.state a = some t) :
    g.visit n w a = ⟨t, g.after n t, w.visited ++ [n]⟩ := by
  unfold Graph.visit
  rw [h]

theorem Graph.visit_of_raise {w : Walk ν σ} {a : α} (h : g.run n w.state a = none) :
    g.visit n w a = ⟨w.state, .raised, w.visited ++ [n]⟩ := by
  unfold Graph.visit
  rw [h]

theorem Graph.visit_visited (w : Walk ν σ) (a : α) :
    (g.visit n w a).visited = w.visited ++ [n] := by
  unfold Graph.visit
  split <;> rfl

theorem Graph.walk_succ (h : (g.walk s answers k).stage = .due n) :
    g.walk s answers (k + 1) = g.visit n (g.walk s answers k) (answers k) := by
  simp only [Graph.walk, Graph.advance, h]

theorem Graph.walk_due_succ {m : ν} (h : (g.walk s answers (k + 1)).stage = .due m) :
    ∃ n t, (g.walk s answers k).stage = .due n ∧
      g.run n (g.walk s answers k).state (answers k) = some t ∧ g.next n t = some m ∧
      (g.walk s answers (k + 1)).state = t := by
  cases hdue : (g.walk s answers k).stage with
  | due n =>
    rw [Graph.walk_succ hdue] at h ⊢
    cases hrun : g.run n (g.walk s answers k).state (answers k) with
    | none =>
      rw [Graph.visit_of_raise hrun] at h
      cases h
    | some t =>
      rw [Graph.visit_of_run hrun] at h ⊢
      refine ⟨n, t, rfl, hrun, ?_, rfl⟩
      dsimp only [Graph.after] at h
      cases hnext : g.next n t with
      | none =>
        rw [hnext] at h
        cases h
      | some m' =>
        rw [hnext] at h
        cases h
        rfl
  | ended =>
    simp only [Graph.walk, Graph.advance, hdue] at h
    cases h
  | raised =>
    simp only [Graph.walk, Graph.advance, hdue] at h
    cases h

theorem Graph.walk_invariant {I : Walk ν σ → Prop} (hstart : I (g.start s))
    (hvisit : ∀ w n a, I w → w.stage = .due n → I (g.visit n w a)) (k : ℕ) :
    I (g.walk s answers k) := by
  induction k with
  | zero => exact hstart
  | succ k ih =>
    unfold Graph.walk Graph.advance
    split
    · rename_i n hdue
      exact hvisit _ n _ ih hdue
    · exact ih
    · exact ih

/-- What holds before any node has run, and after each node that comes to be due, holds of the
nodes that a walk has run. -/
theorem Graph.walk_visited {P : List ν → Prop} (hstart : P [])
    (hvisit : ∀ k n, (g.walk s answers k).stage = .due n → P ((g.walk s answers k).visited ++ [n]))
    (k : ℕ) : P (g.walk s answers k).visited := by
  induction k with
  | zero => exact hstart
  | succ k ih =>
    cases hdue : (g.walk s answers k).stage with
    | due n =>
      rw [Graph.walk_succ hdue, Graph.visit_visited]
      exact hvisit k n hdue
    | ended =>
      simp only [Graph.walk, Graph.advance, hdue]
      exact ih
    | raised =>
      simp only [Graph.walk, Graph.advance, hdue]
      exact ih

theorem Graph.walk_length (h : (g.walk s answers k).stage = .due n) :
    (g.walk s answers k).visited.length = k := by
  induction k generalizing n with
  | zero => rfl
  | succ k ih =>
    cases hdue : (g.walk s answers k).stage with
    | due m =>
      rw [Graph.walk_succ hdue, Graph.visit_visited, List.length_append, ih hdue]
      rfl
    | ended =>
      simp only [Graph.walk, Graph.advance, hdue] at h
      cases h
    | raised =>
      simp only [Graph.walk, Graph.advance, hdue] at h
      cases h

theorem Graph.walk_of_stopped {j : ℕ} (h : ∀ n, (g.walk s answers k).stage ≠ .due n)
    (hle : k ≤ j) : g.walk s answers j = g.walk s answers k := by
  induction hle with
  | refl => rfl
  | @step m _ ih =>
    change g.advance (g.walk s answers m) (answers m) = g.walk s answers k
    rw [ih]
    unfold Graph.advance
    split
    · rename_i n hdue
      exact absurd hdue (h n)
    · rfl
    · rfl

theorem Graph.walk_of_ended (h : (g.walk s answers k).stage = .ended) (j : ℕ) :
    (g.walk s answers j).stage ≠ .raised := by
  intro hraised
  have hcontra : Stage.ended = (.raised : Stage ν) := by
    cases Nat.le_total k j with
    | inl hle =>
      rw [Graph.walk_of_stopped (by simp [h]) hle] at hraised
      exact h.symm.trans hraised
    | inr hle =>
      rw [Graph.walk_of_stopped (by simp [hraised]) hle] at h
      exact h.symm.trans hraised
  cases hcontra

theorem Graph.walk_stops {bound : ℕ}
    (hroom : ∀ k n, (g.walk s answers k).stage = .due n →
      (g.walk s answers k).visited.length < bound) :
    (g.walk s answers bound).stage = .ended ∨ (g.walk s answers bound).stage = .raised := by
  cases hstage : (g.walk s answers bound).stage with
  | due n =>
    have hlength := Graph.walk_length hstage
    have hlt := hroom bound n hstage
    omega
  | ended => exact .inl rfl
  | raised => exact .inr rfl

end AutoPR.Workflow
