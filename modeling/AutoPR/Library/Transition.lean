import Mathlib.Logic.Relation

/-! Labelled transition systems with a partial step that is a function of the
state and the action. A run may be restricted to steps that an admission
condition accepts in the state they are taken in; an invariant is proved from
one step and holds along every admitted run. -/
namespace AutoPR.Transition

structure System (σ α : Type*) where
  init : σ
  step : σ → α → Option σ

variable {σ α : Type*} (sys : System σ α)

/-- One step by an action that `ok` admits where it is taken. -/
def System.Step (ok : σ → α → Prop) (s t : σ) : Prop :=
  ∃ a, ok s a ∧ sys.step s a = some t

/-- A run all of whose steps are admitted. -/
abbrev System.Run (ok : σ → α → Prop) : σ → σ → Prop :=
  Relation.ReflTransGen (sys.Step ok)

def System.Reachable (ok : σ → α → Prop) (s : σ) : Prop := sys.Run ok sys.init s

/-- The condition that admits every step. -/
def anyStep : σ → α → Prop := fun _ _ => True

variable {sys} {ok : σ → α → Prop} {s t : σ}

theorem Run.mono {ok' : σ → α → Prop} (h : sys.Run ok s t)
    (himp : ∀ s a, ok s a → ok' s a) : sys.Run ok' s t := by
  refine Relation.ReflTransGen.mono ?_ s t h
  rintro u v ⟨a, hok, hstep⟩
  exact ⟨a, himp u a hok, hstep⟩

theorem Reachable.run (h : sys.Reachable ok s) (hr : sys.Run ok s t) : sys.Reachable ok t :=
  Relation.ReflTransGen.trans h hr

theorem Reachable.step {a : α} (h : sys.Reachable ok s) (hok : ok s a)
    (hstep : sys.step s a = some t) : sys.Reachable ok t :=
  Relation.ReflTransGen.tail h ⟨a, hok, hstep⟩

/-- What every admitted step preserves, an admitted run preserves. The step may
use facts `J` that are known to hold in every state of the run. -/
theorem Run.invariant {I J : σ → Prop} (hJ : ∀ u, sys.Run ok s u → J u)
    (hstep : ∀ u a v, J u → ok u a → sys.step u a = some v → I u → I v)
    (h : sys.Run ok s t) (hs : I s) : I t := by
  induction h with
  | refl => exact hs
  | tail hrun hlast ih =>
    obtain ⟨a, hok, hv⟩ := hlast
    exact hstep _ a _ (hJ _ hrun) hok hv ih

theorem Reachable.invariant {I J : σ → Prop} (hJ : ∀ u, sys.Reachable ok u → J u)
    (hinit : I sys.init)
    (hstep : ∀ u a v, J u → ok u a → sys.step u a = some v → I u → I v)
    (h : sys.Reachable ok s) : I s :=
  Run.invariant hJ hstep h hinit

/-- A relation that every step can restore by a run of the other system relates
every reachable state to a reachable state of that system. -/
theorem Reachable.simulate {τ β : Type*} {abs : System τ β} {R : σ → τ → Prop} {J : σ → Prop}
    (hJ : ∀ u, sys.Reachable ok u → J u) (hinit : R sys.init abs.init)
    (hstep : ∀ u a v x, J u → ok u a → sys.step u a = some v → R u x →
      ∃ y, abs.Run anyStep x y ∧ R v y)
    (h : sys.Reachable ok s) : ∃ x, abs.Reachable anyStep x ∧ R s x := by
  induction h with
  | refl => exact ⟨abs.init, .refl, hinit⟩
  | tail hrun hlast ih =>
    obtain ⟨a, hok, hv⟩ := hlast
    obtain ⟨x, hx, hR⟩ := ih
    obtain ⟨y, hy, hRy⟩ := hstep _ a _ x (hJ _ hrun) hok hv hR
    exact ⟨y, Reachable.run hx hy, hRy⟩

/-- A function into the states of another system that takes every admitted step to
an admitted step there, or to none, takes reachable states to reachable ones. -/
theorem Reachable.refine {τ β : Type*} {abs : System τ β} {ok' : τ → β → Prop} {f : σ → τ}
    {J : σ → Prop} (hJ : ∀ u, sys.Reachable ok u → J u) (hinit : f sys.init = abs.init)
    (hstep : ∀ u a v, J u → ok u a → sys.step u a = some v →
      f v = f u ∨ ∃ b, ok' (f u) b ∧ abs.step (f u) b = some (f v))
    (h : sys.Reachable ok s) : abs.Reachable ok' (f s) := by
  induction h with
  | refl =>
    rw [hinit]
    exact .refl
  | tail hrun hlast ih =>
    obtain ⟨a, hok, hv⟩ := hlast
    obtain hsame | ⟨b, hok', hb⟩ := hstep _ a _ (hJ _ hrun) hok hv
    · rw [hsame]
      exact ih
    · exact Reachable.step ih hok' hb

theorem Run.single {a : α} (hok : ok s a) (h : sys.step s a = some t) : sys.Run ok s t :=
  .single ⟨a, hok, h⟩

def System.exec (sys : System σ α) : List α → σ → Option σ
  | [], s => some s
  | a :: rest, s => (sys.step s a).bind (sys.exec rest)

/-- Every action of the list is admitted where it is taken. -/
def System.Admits (sys : System σ α) (ok : σ → α → Prop) : List α → σ → Prop
  | [], _ => True
  | a :: rest, s => ok s a ∧ (sys.step s a).elim True (sys.Admits ok rest)

instance System.decidableAdmits (sys : System σ α) (ok : σ → α → Prop)
    [∀ s a, Decidable (ok s a)] : ∀ acts s, Decidable (sys.Admits ok acts s)
  | [], _ => isTrue trivial
  | a :: rest, s =>
      have : Decidable ((sys.step s a).elim True (sys.Admits ok rest)) :=
        match sys.step s a with
        | none => isTrue trivial
        | some t => sys.decidableAdmits ok rest t
      inferInstanceAs (Decidable (ok s a ∧ _))

theorem Run.of_exec {acts : List α} (h : sys.exec acts s = some t)
    (hok : sys.Admits ok acts s) : sys.Run ok s t := by
  induction acts generalizing s with
  | nil =>
    cases Option.some.inj h
    exact .refl
  | cons a rest ih =>
    obtain ⟨u, hu, hrest⟩ := Option.bind_eq_some_iff.mp h
    obtain ⟨ha, hadmits⟩ := hok
    rw [hu] at hadmits
    exact .head ⟨a, ha, hu⟩ (ih hrest hadmits)

theorem System.Admits.any (acts : List α) (s : σ) : sys.Admits anyStep acts s := by
  induction acts generalizing s with
  | nil => trivial
  | cons a rest ih =>
    refine ⟨trivial, ?_⟩
    cases sys.step s a with
    | none => trivial
    | some t => exact ih t

/-- What is admitted along a run may be judged by another condition, where that one follows
in every state of the run. -/
theorem System.Admits.imp {ok' : σ → α → Prop} {acts : List α} (h : sys.Admits ok acts s)
    (hs : sys.Reachable ok s) (himp : ∀ u a, sys.Reachable ok u → ok u a → ok' u a) :
    sys.Admits ok' acts s := by
  induction acts generalizing s with
  | nil => trivial
  | cons a rest ih =>
    obtain ⟨hok, hrest⟩ := h
    refine ⟨himp s a hs hok, ?_⟩
    cases hstep : sys.step s a with
    | none => trivial
    | some t =>
      rw [hstep] at hrest
      exact ih hrest (Reachable.step hs hok hstep)

/-- The state an executable list of actions ends in. -/
def System.after (sys : System σ α) (acts : List α) (h : (sys.exec acts sys.init).isSome) : σ :=
  (sys.exec acts sys.init).get h

theorem Reachable.after {acts : List α} (h : (sys.exec acts sys.init).isSome)
    (hok : sys.Admits ok acts sys.init) : sys.Reachable ok (sys.after acts h) :=
  Run.of_exec (Option.some_get h).symm hok

theorem System.exec_append (sys : System σ α) (first rest : List α) (s : σ) :
    sys.exec (first ++ rest) s = (sys.exec first s).bind (sys.exec rest) := by
  induction first generalizing s with
  | nil => rfl
  | cons a acts ih =>
    simp only [List.cons_append, System.exec]
    cases sys.step s a with
    | none => rfl
    | some t => exact ih t

theorem Run.after {first rest : List α} (h : (sys.exec first sys.init).isSome)
    (hall : (sys.exec (first ++ rest) sys.init).isSome)
    (hok : sys.Admits ok rest (sys.after first h)) :
    sys.Run ok (sys.after first h) (sys.after (first ++ rest) hall) := by
  refine Run.of_exec ?_ hok
  have happend := sys.exec_append first rest sys.init
  rw [← Option.some_get h, Option.bind_some] at happend
  exact happend.symm.trans (Option.some_get hall).symm

variable {ε : Type*} {fine fine' : List ε → ε → Prop} {history : List ε}

/-- Every event is as it should be, given those before it. -/
def Justified (fine : List ε → ε → Prop) : List ε → Prop
  | [] => True
  | e :: earlier => fine earlier e ∧ Justified fine earlier

theorem Justified.append {newer : List ε} (h : Justified fine history)
    (hnewer : ∀ e ∈ newer, ∀ earlier, history <:+ earlier → fine earlier e) :
    Justified fine (newer ++ history) := by
  induction newer with
  | nil => exact h
  | cons e rest ih =>
    refine ⟨hnewer e List.mem_cons_self _ (List.suffix_append rest history), ?_⟩
    apply ih
    intro e' he'
    exact hnewer e' (List.mem_cons_of_mem e he')

theorem Justified.mono (h : Justified fine history)
    (himp : ∀ earlier e, fine earlier e → fine' earlier e) : Justified fine' history := by
  induction history with
  | nil => trivial
  | cons e earlier ih => exact ⟨himp earlier e h.1, ih h.2⟩

theorem Justified.of_mem {e : ε} (h : Justified fine history) (he : e ∈ history) :
    ∃ earlier, e :: earlier <:+ history ∧ fine earlier e := by
  induction history with
  | nil => cases he
  | cons a earlier ih =>
    cases he with
    | head => exact ⟨earlier, List.suffix_refl _, h.1⟩
    | tail _ hmem =>
      obtain ⟨before, hsuffix, hfine⟩ := ih h.2 hmem
      exact ⟨before, hsuffix.trans (List.suffix_cons a earlier), hfine⟩

end AutoPR.Transition
