import Mathlib.Logic.Function.Conjugate

/-! Moves that commute pairwise, such as the steps of threads none of which touches what
another one works on. However their moves are interleaved, once nobody can move any
more the state is the same. -/
namespace AutoPR.Interleaving

variable {ι σ : Type*} (move : ι → σ → σ)

/-- Let them move in this order. -/
def run (schedule : List ι) (s : σ) : σ := schedule.foldl (fun t i => move i t) s

def AtRest (s : σ) : Prop := ∀ i, move i s = s

variable {move} {schedule other : List ι} {s : σ} {i : ι}

@[simp] theorem run_nil : run move [] s = s := rfl

@[simp] theorem run_cons : run move (i :: schedule) s = run move schedule (move i s) := rfl

theorem run_append : run move (schedule ++ other) s = run move other (run move schedule s) :=
  List.foldl_append

theorem AtRest.run (h : AtRest move s) : run move schedule s = s := by
  induction schedule with
  | nil => rfl
  | cons i rest ih =>
    rw [run_cons, h i]
    exact ih

theorem move_run (hcomm : ∀ i j, Function.Commute (move i) (move j)) :
    move i (run move schedule s) = run move schedule (move i s) := by
  induction schedule generalizing s with
  | nil => rfl
  | cons j rest ih =>
    rw [run_cons, run_cons, ih]
    congr 1
    exact hcomm i j s

theorem run_comm (hcomm : ∀ i j, Function.Commute (move i) (move j)) :
    run move schedule (run move other s) = run move other (run move schedule s) := by
  induction schedule generalizing s with
  | nil => rfl
  | cons i rest ih =>
    rw [run_cons, run_cons, move_run hcomm]
    exact ih

theorem rest_unique (hcomm : ∀ i j, Function.Commute (move i) (move j))
    (h : AtRest move (run move schedule s)) (hother : AtRest move (run move other s)) :
    run move schedule s = run move other s := by
  calc run move schedule s
      = run move other (run move schedule s) := h.run.symm
    _ = run move schedule (run move other s) := (run_comm hcomm).symm
    _ = run move other s := hother.run

end AutoPR.Interleaving
