import Mathlib.Data.List.Forall2
import AutoPR.Library.Python

/-! Which computations on Python values return. A value that may be anything is tested for its
shape first; an item is then looked up in it as if it could not fail. -/
namespace AutoPR.Python

def Returns {α : Type} (x : Py α) : Prop := ∃ a, x = .ok a

def isText : PyVal → Bool
  | .str _ => true
  | _ => false

def isTextual (v : PyVal) : Bool := !v.truthy || isText v

def PyVal.isObject : PyVal → Bool
  | .dict _ => true
  | _ => false

/-- An object, or nothing that `v or {}` would keep. -/
def PyVal.isObjectual (v : PyVal) : Bool := !v.truthy || v.isObject

def isNumber (u : Unicode) (v : PyVal) : Bool := (v.toInt u).isOk

def PyVal.isListOf (p : PyVal → Bool) : PyVal → Bool
  | .list items => items.all p
  | _ => false

def PyVal.field (v : PyVal) (key : String) (default : PyVal := .none) : PyVal :=
  match v with
  | .dict items => (items.lookup key).getD default
  | _ => default

theorem mapM_ok {ε α β : Type} {f : α → Except ε β} {items : List α} {results : List β}
    (h : items.mapM f = .ok results) : List.Forall₂ (fun x y => f x = .ok y) items results := by
  induction items generalizing results with
  | nil =>
    cases h
    exact .nil
  | cons x rest ih =>
    rw [List.mapM_cons] at h
    obtain ⟨y, hy, h⟩ := ok_of_bind h
    obtain ⟨ys, hys, h⟩ := ok_of_bind h
    cases h
    exact .cons hy (ih hys)

theorem mapM_error {ε α β : Type} {f : α → Except ε β} {items : List α} {e : ε}
    (h : items.mapM f = .error e) : ∃ x ∈ items, f x = .error e := by
  induction items with
  | nil => cases h
  | cons x rest ih =>
    rw [List.mapM_cons] at h
    cases hx : f x with
    | error e' =>
      rw [hx] at h
      cases h
      exact ⟨x, List.mem_cons_self, hx⟩
    | ok y =>
      cases hrest : rest.mapM f with
      | error e' =>
        rw [hx, hrest] at h
        cases h
        obtain ⟨bad, hmem, hbad⟩ := ih hrest
        exact ⟨bad, List.mem_cons_of_mem x hmem, hbad⟩
      | ok ys =>
        rw [hx, hrest] at h
        cases h

section
variable {α β : Type} {x : Py α} {f : α → Py β} {c : Prop} [Decidable c] {v : PyVal} {key : String}
  {default : PyVal}

theorem Returns.ok (a : α) : Returns (.ok a : Py α) := ⟨a, rfl⟩

@[simp] theorem returns_pure (a : α) : Returns (pure a : Py α) ↔ True := iff_true_intro (Returns.ok a)

theorem not_returns (e : PyError) : ¬ Returns (.error e : Py α) := by
  rintro ⟨a, h⟩
  cases h

theorem returns_bind : Returns (x >>= f) ↔ ∃ a, x = .ok a ∧ Returns (f a) := by
  constructor
  · rintro ⟨b, h⟩
    obtain ⟨a, ha, hb⟩ := ok_of_bind h
    exact ⟨a, ha, b, hb⟩
  · rintro ⟨a, rfl, h⟩
    exact h

theorem returns_bind_of {p : Prop} (hf : ∀ a, Returns (f a) ↔ p) :
    Returns (x >>= f) ↔ Returns x ∧ p := by
  rw [returns_bind]
  constructor
  · rintro ⟨a, ha, hrest⟩
    exact ⟨⟨a, ha⟩, (hf a).mp hrest⟩
  · rintro ⟨⟨a, ha⟩, hp⟩
    exact ⟨a, ha, (hf a).mpr hp⟩

theorem returns_bind_pure (hf : ∀ a, Returns (f a)) : Returns (x >>= f) ↔ Returns x := by
  rw [returns_bind_of fun a => iff_true_intro (hf a), and_true]

theorem returns_unless {a : α} : Returns (if c then pure a else x) ↔ c ∨ Returns x := by
  split
  · rename_i h
    exact iff_of_true (Returns.ok a) (.inl h)
  · rename_i h
    exact (or_iff_right h).symm

theorem returns_mapM {f : α → Py β} {l : List α} :
    Returns (l.mapM f) ↔ ∀ a ∈ l, Returns (f a) := by
  induction l with
  | nil => exact iff_of_true (Returns.ok _) (by simp)
  | cons a rest ih =>
    rw [List.mapM_cons, returns_bind]
    simp only [List.mem_cons, forall_eq_or_imp, ← ih]
    constructor
    · rintro ⟨b, hb, hrest⟩
      exact ⟨⟨b, hb⟩, (returns_bind_pure fun _ => Returns.ok _).mp hrest⟩
    · rintro ⟨⟨b, hb⟩, hrest⟩
      exact ⟨b, hb, (returns_bind_pure fun _ => Returns.ok _).mpr hrest⟩

/-- What is true and can be gone through without a text among its items, is a list: the items of
texts and of objects are texts. -/
theorem iter_all {p : PyVal → Bool} (hp : ∀ s, p (.str s) = false) (h : v.truthy = true) :
    (∃ items, v.iter = .ok items ∧ ∀ x ∈ items, p x = true) ↔ v.isListOf p = true := by
  have htexts (texts : List String) (hne : texts ≠ []) : ¬ ∃ items,
      (.ok (texts.map PyVal.str) : Py (List PyVal)) = .ok items ∧ ∀ x ∈ items, p x = true := by
    rintro ⟨items, hitems, hall⟩
    cases hitems
    obtain ⟨s, hs⟩ := List.exists_mem_of_ne_nil texts hne
    have htext := hall (.str s) (List.mem_map_of_mem hs)
    rw [hp] at htext
    cases htext
  cases v with
  | list items =>
    change _ ↔ items.all p = true
    rw [List.all_eq_true]
    constructor
    · rintro ⟨found, hfound, hall⟩
      cases hfound
      exact hall
    · intro hall
      exact ⟨items, rfl, hall⟩
  | str text =>
    refine iff_of_false ?_ Bool.false_ne_true
    have hne : text.toList.map Char.toString ≠ [] := by
      intro hnil
      rw [List.map_eq_nil_iff, String.toList_eq_nil_iff] at hnil
      rw [hnil] at h
      cases h
    have hall := htexts _ hne
    rw [List.map_map] at hall
    exact hall
  | dict pairs =>
    refine iff_of_false ?_ Bool.false_ne_true
    have hne : pairs.map Prod.fst ≠ [] := by
      intro hnil
      rw [List.map_eq_nil_iff.mp hnil] at h
      cases h
    have hall := htexts _ hne
    rw [List.map_map] at hall
    exact hall
  | none | bool | int | float =>
    refine iff_of_false ?_ Bool.false_ne_true
    rintro ⟨items, hitems, -⟩
    cases hitems

theorem returns_each {f : PyVal → Py β} {p : PyVal → Bool} {x : Py (List PyVal)}
    (hf : ∀ v, Returns (f v) ↔ p v = true) :
    Returns (x >>= fun items => items.mapM f) ↔ ∃ items, x = .ok items ∧ ∀ v ∈ items, p v = true := by
  rw [returns_bind]
  simp only [returns_mapM, hf]

theorem returns_strip : Returns v.strip ↔ isText v = true := by
  cases v <;> simp [Returns, PyVal.strip, isText, pure, Except.pure, throw, throwThe,
    MonadExceptOf.throw]

theorem returns_or_strip (s : String) : Returns (v.or (.str s)).strip ↔ isTextual v = true := by
  unfold PyVal.or isTextual
  cases htruthy : v.truthy with
  | true => simpa using returns_strip
  | false => simpa using returns_strip.mpr rfl

theorem returns_toInt {u : Unicode} : Returns (v.toInt u) ↔ isNumber u v = true := by
  unfold isNumber
  cases v.toInt u with
  | ok n => exact iff_of_true (Returns.ok n) rfl
  | error e => exact iff_of_false (not_returns e) Bool.false_ne_true

theorem get_eq (h : v.isObject = true) : v.get key default = .ok (v.field key default) := by
  cases v with
  | dict items => rfl
  | none | bool | int | float | str | list => cases h

theorem returns_get : Returns (v.get key default) ↔ v.isObject = true := by
  cases v with
  | dict items => exact iff_of_true (Returns.ok _) rfl
  | none | bool | int | float | str | list => exact iff_of_false (not_returns _) Bool.false_ne_true

theorem get_field {x : PyVal} (h : v.get key default = .ok x) : x = v.field key default := by
  rw [get_eq (returns_get.mp ⟨x, h⟩)] at h
  exact (Except.ok.inj h).symm

@[simp] theorem returns_get_bind {f : PyVal → Py β} :
    Returns (v.get key default >>= f) ↔ v.isObject = true ∧ Returns (f (v.field key default)) := by
  rw [returns_bind]
  constructor
  · rintro ⟨x, hx, hrest⟩
    have hobject := returns_get.mp ⟨x, hx⟩
    rw [get_eq hobject] at hx
    cases hx
    exact ⟨hobject, hrest⟩
  · rintro ⟨hobject, hrest⟩
    exact ⟨_, get_eq hobject, hrest⟩

@[simp] theorem isObject_or : (v.or (.dict [])).isObject = v.isObjectual := by
  unfold PyVal.or PyVal.isObjectual
  cases v.truthy with
  | true => rfl
  | false => rfl

@[simp] theorem field_or : (v.or (.dict [])).field key default = v.field key default := by
  unfold PyVal.or
  cases htruthy : v.truthy with
  | true => rfl
  | false =>
    cases v with
    | dict items =>
      cases items with
      | nil => rfl
      | cons => cases htruthy
    | none | bool | int | float | str | list => rfl

end

end AutoPR.Python
