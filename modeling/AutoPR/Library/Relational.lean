/-! Two runs of stateful computations that may raise. They agree under a relation of their
states if they end alike, with the same value or the same exception, in states that are
related again. -/
namespace AutoPR.Relational

variable {ε σ α β : Type}

/-- The state that a computation ends in, whether or not it raises. -/
def final (x : EStateM ε σ α) (s : σ) : σ :=
  match x s with
  | .ok _ t | .error _ t => t

/-- The value or the exception. -/
def outcome (x : EStateM ε σ α) (s : σ) : Except ε α :=
  match x s with
  | .ok a _ => .ok a
  | .error e _ => .error e

section
variable {x : EStateM ε σ α} {f : α → EStateM ε σ β} {s t : σ} {b : β} {e : ε}

theorem bind_ok (h : (x >>= f) s = .ok b t) : ∃ a u, x s = .ok a u ∧ f a u = .ok b t := by
  simp only [bind, EStateM.bind] at h
  cases hx : x s with
  | ok a u =>
    rw [hx] at h
    exact ⟨a, u, rfl, h⟩
  | error e u =>
    rw [hx] at h
    cases h

theorem bind_of_ok {a : α} (hx : x s = .ok a t) : (x >>= f) s = f a t := by
  simp only [bind, EStateM.bind, hx]

theorem bind_of_error (hx : x s = .error e t) : (x >>= f) s = .error e t := by
  simp only [bind, EStateM.bind, hx]

theorem get_bind (f : σ → EStateM ε σ β) (s : σ) : (get >>= f) s = f s s := rfl

theorem final_bind_ok {a : α} (hx : x s = .ok a t) : final (x >>= f) s = final (f a) t := by
  unfold final
  rw [bind_of_ok hx]

theorem final_bind_error (hx : x s = .error e t) : final (x >>= f) s = t := by
  unfold final
  rw [bind_of_error hx]

def Completes (x : EStateM ε σ α) (s : σ) : Prop := ∃ a t, x s = .ok a t

theorem Completes.pure (a : α) (s : σ) : Completes (Pure.pure a : EStateM ε σ α) s := ⟨a, s, rfl⟩

theorem not_completes (h : x s = .error e t) : ¬ Completes x s := by
  rintro ⟨a, u, hx⟩
  cases h.symm.trans hx

theorem completes_bind :
    Completes (x >>= f) s ↔ ∃ a t, x s = .ok a t ∧ Completes (f a) t := by
  constructor
  · rintro ⟨b, u, h⟩
    obtain ⟨a, t, hx, hf⟩ := bind_ok h
    exact ⟨a, t, hx, b, u, hf⟩
  · rintro ⟨a, t, hx, b, u, hf⟩
    exact ⟨b, u, (bind_of_ok hx).trans hf⟩

theorem completes_bind_ok {a : α} (hx : x s = .ok a t) :
    Completes (x >>= f) s ↔ Completes (f a) t := by
  unfold Completes
  rw [bind_of_ok hx]

theorem completes_bind_of {p : Prop} (hf : ∀ a t, x s = .ok a t → (Completes (f a) t ↔ p)) :
    Completes (x >>= f) s ↔ Completes x s ∧ p := by
  rw [completes_bind]
  constructor
  · rintro ⟨a, t, hx, hrest⟩
    exact ⟨⟨a, t, hx⟩, (hf a t hx).mp hrest⟩
  · rintro ⟨⟨a, t, hx⟩, hp⟩
    exact ⟨a, t, hx, (hf a t hx).mpr hp⟩

def Keeps (R : σ → σ → Prop) (x : EStateM ε σ α) : Prop := ∀ s, R s (final x s)

variable {R : σ → σ → Prop}

theorem Keeps.pure (hrefl : ∀ s, R s s) (a : α) : Keeps R (Pure.pure a : EStateM ε σ α) :=
  fun s => hrefl s

theorem Keeps.throw (hrefl : ∀ s, R s s) (e : ε) : Keeps R (throw e : EStateM ε σ α) :=
  fun s => hrefl s

theorem Keeps.bind_of (htrans : ∀ s t u, R s t → R t u → R s u) (hx : Keeps R x)
    (hf : ∀ a s t, x s = .ok a t → Keeps R (f a)) : Keeps R (x >>= f) := by
  intro s
  have hs := hx s
  cases hrun : x s with
  | error e t =>
    rw [final_bind_error hrun]
    unfold final at hs
    rwa [hrun] at hs
  | ok a t =>
    rw [final_bind_ok hrun]
    unfold final at hs
    rw [hrun] at hs
    exact htrans s t _ hs (hf a s t hrun t)

theorem Keeps.bind (htrans : ∀ s t u, R s t → R t u → R s u) (hx : Keeps R x)
    (hf : ∀ a, Keeps R (f a)) : Keeps R (x >>= f) :=
  Keeps.bind_of htrans hx fun a _ _ _ => hf a

theorem Keeps.after (hrefl : ∀ s, R s s) (hf : ∀ a, Keeps R (f a)) (s : σ) :
    R (final x s) (final (x >>= f) s) := by
  cases hrun : x s with
  | error e t =>
    rw [final_bind_error hrun]
    unfold final
    rw [hrun]
    exact hrefl t
  | ok a t =>
    rw [final_bind_ok hrun]
    unfold final
    rw [hrun]
    exact hf a t

theorem Keeps.ite {c : Prop} [Decidable c] {y : EStateM ε σ α} (hx : Keeps R x) (hy : Keeps R y) :
    Keeps R (if c then x else y) := by
  split
  · exact hx
  · exact hy

end

inductive Alike (R : σ → σ → Prop) : EStateM.Result ε σ α → EStateM.Result ε σ α → Prop where
  | ok (a : α) {s t : σ} (h : R s t) : Alike R (.ok a s) (.ok a t)
  | error (e : ε) {s t : σ} (h : R s t) : Alike R (.error e s) (.error e t)

/-- From states that `R` relates, the same end in states that `S` relates. -/
def Agrees (R S : σ → σ → Prop) (x y : EStateM ε σ α) : Prop :=
  ∀ s t, R s t → Alike S (x s) (y t)

section
variable {R S T : σ → σ → Prop} {x y : EStateM ε σ α} {f g : α → EStateM ε σ β} {s t : σ}

theorem Agrees.pure (a : α) : Agrees R R (Pure.pure a : EStateM ε σ α) (Pure.pure a) :=
  fun _ _ h => .ok a h

theorem Agrees.throw (e : ε) : Agrees R R (throw e : EStateM ε σ α) (throw e) :=
  fun _ _ h => .error e h

theorem Agrees.mono {R' S' : σ → σ → Prop} (hx : Agrees R S x y) (hR : ∀ s t, R' s t → R s t)
    (hS : ∀ s t, S s t → S' s t) : Agrees R' S' x y := by
  intro s t h
  have hst := hx s t (hR s t h)
  generalize x s = p at hst ⊢
  generalize y t = q at hst ⊢
  cases hst with
  | ok a h' => exact .ok a (hS _ _ h')
  | error e h' => exact .error e (hS _ _ h')

theorem Agrees.outcome (hx : Agrees R S x y) (h : R s t) :
    Relational.outcome x s = Relational.outcome y t ∧ S (final x s) (final y t) := by
  have hst := hx s t h
  unfold Relational.outcome final
  generalize x s = p at hst ⊢
  generalize y t = q at hst ⊢
  cases hst with
  | ok a h' => exact ⟨rfl, h'⟩
  | error e h' => exact ⟨rfl, h'⟩

theorem Agrees.bind_of (hx : Agrees R S x y) (hraise : ∀ s t, S s t → T s t)
    (hf : ∀ a s t, x s = .ok a t → Agrees S T (f a) (g a)) : Agrees R T (x >>= f) (y >>= g) := by
  intro s t h
  have hst := hx s t h
  simp only [Bind.bind, EStateM.bind]
  cases hxs : x s with
  | ok a s' =>
    rw [hxs] at hst
    generalize y t = q at hst ⊢
    cases hst with
    | ok _ h' => exact hf a s s' hxs s' _ h'
  | error e s' =>
    rw [hxs] at hst
    generalize y t = q at hst ⊢
    cases hst with
    | error _ h' => exact .error e (hraise _ _ h')

theorem Agrees.bind (hx : Agrees R S x y) (hraise : ∀ s t, S s t → T s t)
    (hf : ∀ a, Agrees S T (f a) (g a)) : Agrees R T (x >>= f) (y >>= g) :=
  Agrees.bind_of hx hraise fun a _ _ _ => hf a

theorem Agrees.ite {c : Prop} [Decidable c] {x' y' : EStateM ε σ α} (hx : Agrees R S x y)
    (hy : Agrees R S x' y') : Agrees R S (if c then x else x') (if c then y else y') := by
  split
  · exact hx
  · exact hy

theorem Agrees.strengthen {P : σ → σ → Prop} (hx : Agrees R S x y)
    (hkeep : ∀ s t, P s t → P (final x s) (final y t)) :
    Agrees (fun s t => R s t ∧ P s t) (fun s t => S s t ∧ P s t) x y := by
  intro s t h
  have hst := hx s t h.1
  have hP := hkeep s t h.2
  unfold final at hP
  generalize x s = p at hst hP ⊢
  generalize y t = q at hst hP ⊢
  cases hst with
  | ok a h' => exact .ok a ⟨h', hP⟩
  | error e h' => exact .error e ⟨h', hP⟩

end

end AutoPR.Relational
