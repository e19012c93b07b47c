import Mathlib.Data.List.Induction
import Mathlib.Logic.Function.Basic

/-! Rows of a table behind an object-relational session. A session keeps the
copy it loaded; committing a changed object writes only the columns in which the
object differs from that copy, whatever the row holds by then. -/
namespace AutoPR.UnitOfWork

variable {ι ρ α : Type*} [DecidableEq ι] [DecidableEq α]

abbrev Table (ι ρ : Type*) := ι → Option ρ

def Table.write (table : Table ι ρ) (i : ι) : Option ρ → Table ι ρ
  | none => table
  | some row => Function.update table i (some row)

@[simp] theorem Table.write_none (table : Table ι ρ) (i : ι) : table.write i none = table := rfl

@[simp] theorem Table.write_self (table : Table ι ρ) (i : ι) (row : ρ) :
    table.write i (some row) i = some row := by
  simp [Table.write]

theorem Table.write_of_ne (table : Table ι ρ) {i j : ι} (row : Option ρ) (h : j ≠ i) :
    table.write i row j = table j := by
  cases row with
  | none => rfl
  | some row => simp [Table.write, h]

theorem Table.write_comm (table : Table ι ρ) {i j : ι} (h : i ≠ j) (row row' : Option ρ) :
    (table.write i row).write j row' = (table.write j row').write i row := by
  cases row with
  | none => rfl
  | some row =>
    cases row' with
    | none => rfl
    | some row' => exact Function.update_comm h _ _ table

/-- The value of a column after the commit: the new value where the object
differs from the loaded copy, the row's current value elsewhere. -/
def column (copy new current : α) : α := if new = copy then current else new

@[simp] theorem column_clean (copy current : α) : column copy copy current = current := by
  simp [column]

@[simp] theorem column_fresh (copy new : α) : column copy new copy = new := by
  unfold column
  split
  · rename_i h
    exact h.symm
  · rfl

theorem column_dirty {copy new : α} (h : new ≠ copy) (current : α) :
    column copy new current = new := by
  simp [column, h]

theorem column_eq_or (copy new current : α) :
    column copy new current = current ∨ column copy new current = new := by
  unfold column
  split
  · exact .inl rfl
  · exact .inr rfl

section
variable {κ : Type*} [DecidableEq κ] (key : ρ → κ)

/-- INSERT ... ON CONFLICT DO NOTHING: a row whose key is taken is dropped. -/
def insertIgnore (rows : List ρ) (row : ρ) : List ρ :=
  if rows.any (key · = key row) then rows else rows ++ [row]

def rowsOf (k : κ) (rows : List ρ) : List ρ := rows.filter (key · = k)

variable {key} {rows : List ρ} {row : ρ} {k : κ}

theorem rowsOf_eq_nil : rowsOf key k rows = [] ↔ ∀ r ∈ rows, key r ≠ k := by
  simp [rowsOf]

theorem rowsOf_insertIgnore_of_ne (h : key row ≠ k) :
    rowsOf key k (insertIgnore key rows row) = rowsOf key k rows := by
  unfold insertIgnore
  split
  · rfl
  · simp [rowsOf, h]

theorem rowsOf_insertIgnore_free (h : rowsOf key (key row) rows = []) :
    rowsOf key (key row) (insertIgnore key rows row) = [row] := by
  have hfree := rowsOf_eq_nil.mp h
  have hany : rows.any (key · = key row) = false := by simpa using hfree
  unfold rowsOf at h
  simp [insertIgnore, hany, rowsOf, h]

theorem rowsOf_insertIgnore_taken (h : rowsOf key (key row) rows ≠ []) :
    rowsOf key (key row) (insertIgnore key rows row) = rowsOf key (key row) rows := by
  have hany : rows.any (key · = key row) = true := by
    by_contra hnone
    exact h (rowsOf_eq_nil.mpr (by simpa using hnone))
  simp [insertIgnore, hany]

/-- A table filled by insert-ignore keeps, under each key, the first row that was
tried. -/
theorem rowsOf_foldl_insertIgnore (tried : List ρ) (k : κ) :
    rowsOf key k (tried.foldl (insertIgnore key) []) = (rowsOf key k tried).head?.toList := by
  induction tried using List.reverseRecOn with
  | nil => rfl
  | append_singleton tried row ih =>
    simp only [List.foldl_append, List.foldl_cons, List.foldl_nil]
    by_cases hk : key row = k
    · subst hk
      have hlast : rowsOf key (key row) (tried ++ [row]) = rowsOf key (key row) tried ++ [row] := by
        simp [rowsOf]
      rw [hlast]
      cases htried : rowsOf key (key row) tried with
      | nil =>
        rw [htried] at ih
        rw [rowsOf_insertIgnore_free ih]
        rfl
      | cons first rest =>
        rw [htried] at ih
        rw [rowsOf_insertIgnore_taken (by simp [ih]), ih]
        rfl
    · have hskip : rowsOf key k (tried ++ [row]) = rowsOf key k tried := by
        simp [rowsOf, hk]
      rw [rowsOf_insertIgnore_of_ne hk, ih, hskip]

end

end AutoPR.UnitOfWork
