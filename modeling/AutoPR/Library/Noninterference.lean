import Mathlib.Data.List.Basic

/-! A machine that answers its inputs one after another. Inputs that leave alone what the others
are answered from may be left out of a run, and what an input is answered shows only what its
answer is computed from. -/
namespace AutoPR.Noninterference

variable {σ ι ο ω : Type*}

abbrev Machine (σ ι ο : Type*) := σ → ι → ο × σ

variable (serve : Machine σ ι ο)

/-- The state after the inputs. -/
def after (s : σ) (inputs : List ι) : σ := inputs.foldl (fun t i => (serve t i).2) s

/-- The inputs with their answers. -/
def answers : σ → List ι → List (ι × ο)
  | _, [] => []
  | s, i :: rest => (i, (serve s i).1) :: answers (serve s i).2 rest

@[simp] theorem after_nil (s : σ) : after serve s [] = s := rfl

@[simp] theorem after_cons (s : σ) (i : ι) (rest : List ι) :
    after serve s (i :: rest) = after serve (serve s i).2 rest := rfl

@[simp] theorem answers_nil (s : σ) : answers serve s [] = [] := rfl

@[simp] theorem answers_cons (s : σ) (i : ι) (rest : List ι) :
    answers serve s (i :: rest) = (i, (serve s i).1) :: answers serve (serve s i).2 rest := rfl

def seenThrough (look : ο → ω) : Machine σ ι ω := fun s i => (look (serve s i).1, (serve s i).2)

/-- The relation survives an input that is left out on one side, and one that is kept on both and
answered alike. -/
structure Unwinding (keep : ι → Bool) (ok : ι → Prop) (R : σ → σ → Prop) : Prop where
  dropped : ∀ s t i, ok i → keep i = false → R s t → R (serve s i).2 t
  kept : ∀ s t i, ok i → keep i = true → R s t →
    (serve s i).1 = (serve t i).1 ∧ R (serve s i).2 (serve t i).2

/-- The relation survives an input that is made on both sides, and the inputs that are looked at
are answered alike. -/
structure Lockstep (seen : ι → Prop) (R : σ → σ → Prop) : Prop where
  step : ∀ s t i, R s t → R (serve s i).2 (serve t i).2
  same : ∀ s t i, seen i → R s t → (serve s i).1 = (serve t i).1

variable {serve} {keep : ι → Bool} {ok seen : ι → Prop} {R : σ → σ → Prop} {s t : σ}
  {inputs : List ι}

/-- Leaving the other inputs out changes neither the answers to those that are kept nor, up to the
relation, the state. -/
theorem Unwinding.purge (h : Unwinding serve keep ok R) (hok : ∀ i ∈ inputs, ok i) (hR : R s t) :
    (answers serve s inputs).filter (fun a => keep a.1) = answers serve t (inputs.filter keep) ∧
      R (after serve s inputs) (after serve t (inputs.filter keep)) := by
  induction inputs generalizing s t with
  | nil => exact ⟨rfl, hR⟩
  | cons i rest ih =>
    have hrest : ∀ j ∈ rest, ok j := fun j hj => hok j (List.mem_cons_of_mem _ hj)
    have hi := hok i List.mem_cons_self
    cases hkeep : keep i with
    | false =>
      obtain ⟨hanswers, hafter⟩ := ih hrest (h.dropped s t i hi hkeep hR)
      simp only [answers_cons, after_cons, List.filter_cons, hkeep, Bool.false_eq_true, if_false]
      exact ⟨hanswers, hafter⟩
    | true =>
      obtain ⟨hsame, hnext⟩ := h.kept s t i hi hkeep hR
      obtain ⟨hanswers, hafter⟩ := ih hrest hnext
      simp only [answers_cons, after_cons, List.filter_cons, hkeep, if_true]
      exact ⟨by rw [hsame, hanswers], hafter⟩

theorem Lockstep.answers_filter (h : Lockstep serve seen R) (p : ι → Bool)
    (hp : ∀ i ∈ inputs, p i = true → seen i) (hR : R s t) :
    (answers serve s inputs).filter (fun a => p a.1) =
      (answers serve t inputs).filter (fun a => p a.1) := by
  induction inputs generalizing s t with
  | nil => rfl
  | cons i rest ih =>
    have hrest := ih (fun j hj => hp j (List.mem_cons_of_mem _ hj)) (h.step s t i hR)
    simp only [answers_cons, List.filter_cons]
    cases hpi : p i with
    | false => simpa using hrest
    | true =>
      rw [h.same s t i (hp i List.mem_cons_self hpi) hR]
      simpa using hrest

end AutoPR.Noninterference
