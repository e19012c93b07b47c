import Mathlib.Data.List.Nodup

/-! A store that holds one item for each key. Items are written in batches; an item replaces the
one with its key. Where items have owners, a batch of one owner leaves the others' items alone as
long as it meets no key of theirs. -/
namespace AutoPR.Upsert

structure Store {α ι : Type*} (key : α → ι) where
  items : List α
  unique : (items.map key).Nodup

variable {α ι ω : Type*} [DecidableEq ι] {key : α → ι}

instance : Membership α (Store key) := ⟨fun s a => a ∈ s.items⟩

namespace Store

omit [DecidableEq ι] in
theorem mem_iff {s : Store key} {a : α} : a ∈ s ↔ a ∈ s.items := Iff.rfl

def empty : Store key := ⟨[], List.nodup_nil⟩

def put (s : Store key) (a : α) : Store key where
  items := s.items.filter (key · ≠ key a) ++ [a]
  unique := by
    rw [List.map_append, List.nodup_append]
    refine ⟨s.unique.sublist (List.filter_sublist.map key), List.nodup_singleton _, ?_⟩
    intro k hk k' hk'
    obtain ⟨b, hb, rfl⟩ := List.mem_map.mp hk
    rw [List.map_singleton, List.mem_singleton] at hk'
    rw [hk']
    exact of_decide_eq_true (List.mem_filter.mp hb).2

theorem mem_put {s : Store key} {a b : α} : b ∈ s.put a ↔ b ∈ s ∧ key b ≠ key a ∨ b = a := by
  rw [mem_iff, mem_iff, put, List.mem_append, List.mem_filter, List.mem_singleton,
    decide_eq_true_eq]

def upsert (s : Store key) (batch : List α) : Store key := batch.foldl put s

theorem upsert_cons (s : Store key) (a : α) (rest : List α) :
    s.upsert (a :: rest) = (s.put a).upsert rest := rfl

variable {s t : Store key} {batch : List α} {a b : α}

theorem mem_upsert (h : b ∈ s.upsert batch) :
    b ∈ batch ∨ b ∈ s ∧ ∀ a ∈ batch, key b ≠ key a := by
  induction batch generalizing s with
  | nil =>
    right
    exact ⟨h, by simp⟩
  | cons a rest ih =>
    rw [upsert_cons] at h
    cases ih h with
    | inl hrest => exact .inl (List.mem_cons_of_mem a hrest)
    | inr hput =>
      obtain ⟨hmem, hother⟩ := hput
      cases mem_put.mp hmem with
      | inl hold =>
        right
        refine ⟨hold.1, ?_⟩
        intro c hc
        cases hc with
        | head => exact hold.2
        | tail _ hc => exact hother c hc
      | inr hnew =>
        left
        rw [hnew]
        exact List.mem_cons_self

theorem upsert_keeps (h : b ∈ s) (hother : ∀ a ∈ batch, key b ≠ key a) : b ∈ s.upsert batch := by
  induction batch generalizing s with
  | nil => exact h
  | cons a rest ih =>
    rw [upsert_cons]
    apply ih
    · exact mem_put.mpr (.inl ⟨h, hother a List.mem_cons_self⟩)
    · intro c hc
      exact hother c (List.mem_cons_of_mem a hc)

theorem upsert_same_key (h : b ∈ s.upsert batch) (ha : a ∈ batch) (hkey : key b = key a) :
    b ∈ batch ∧ b ∈ t.upsert batch := by
  induction batch generalizing s t a with
  | nil => cases ha
  | cons c rest ih =>
    rw [upsert_cons] at h ⊢
    by_cases hlater : ∃ a' ∈ rest, key b = key a'
    · obtain ⟨a', ha', hkey'⟩ := hlater
      obtain ⟨hmem, hthere⟩ := @ih (s.put c) (t.put c) a' h ha' hkey'
      exact ⟨List.mem_cons_of_mem c hmem, hthere⟩
    · have hother : ∀ a' ∈ rest, key b ≠ key a' := fun a' ha' hkey' => hlater ⟨a', ha', hkey'⟩
      have hac : a = c := by
        cases ha with
        | head => rfl
        | tail _ ha => exact absurd hkey (hother a ha)
      subst hac
      have hput : b ∈ s.put a := by
        cases mem_upsert h with
        | inl hrest => exact absurd rfl (hother b hrest)
        | inr hput => exact hput.1
      have hba : b = a := (mem_put.mp hput).resolve_left fun hold => hold.2 hkey
      subst hba
      exact ⟨List.mem_cons_self, upsert_keeps (mem_put.mpr (.inr rfl)) hother⟩

variable {own : α → ω} {o : ω}

def Meets (own : α → ω) (o : ω) (s : Store key) (batch : List α) : Prop :=
  ∀ a ∈ batch, ∀ b ∈ s, key b = key a → own b = o

def Alike (own : α → ω) (o : ω) (s t : Store key) : Prop := ∀ b, own b = o → (b ∈ s ↔ b ∈ t)

theorem others_alike_iff (hbatch : ∀ a ∈ batch, own a = o) :
    (∀ p, p ≠ o → Alike own p (s.upsert batch) s) ↔ Meets own o s batch := by
  constructor
  · intro h a ha b hb hkey
    by_contra hother
    have hkept := (h (own b) hother b rfl).mpr hb
    exact hother (hbatch b (@upsert_same_key _ _ _ _ s s batch a b hkept ha hkey).1)
  · intro h p hp b hb
    constructor
    · intro hmem
      cases mem_upsert hmem with
      | inl hnew => exact absurd (hb.symm.trans (hbatch b hnew)) hp
      | inr hold => exact hold.1
    · intro hmem
      apply upsert_keeps hmem
      intro a ha hkey
      exact hp (hb.symm.trans (h a ha b hmem hkey))

theorem Alike.upsert (h : Alike own o s t) : Alike own o (s.upsert batch) (t.upsert batch) := by
  have hhalf (s t : Store key) (h : Alike own o s t) (b : α) (hb : own b = o)
      (hmem : b ∈ s.upsert batch) : b ∈ t.upsert batch := by
    by_cases hkey : ∃ a ∈ batch, key b = key a
    · obtain ⟨a, ha, hkey⟩ := hkey
      exact (upsert_same_key hmem ha hkey).2
    · have hother : ∀ a ∈ batch, key b ≠ key a := fun a ha hsame => hkey ⟨a, ha, hsame⟩
      cases mem_upsert hmem with
      | inl hnew => exact absurd rfl (hother b hnew)
      | inr hold => exact upsert_keeps ((h b hb).mp hold.1) hother
  intro b hb
  constructor
  · exact hhalf s t h b hb
  · exact hhalf t s (fun b hb => (h b hb).symm) b hb

end Store

end AutoPR.Upsert
