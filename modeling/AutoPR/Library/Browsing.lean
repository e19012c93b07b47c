import Mathlib.Data.List.Perm.Subperm

/-! A list without repetitions that is read page by page, while it changes between two requests.
Nothing that was listed is missed as long as nothing leaves the list: what is put in front moves
the rest towards the pages that are still to come. -/
namespace AutoPR.Browsing

/-- The page of a list from an offset on. -/
def page {α : Type _} (size offset : Nat) (l : List α) : List α := (l.drop offset).take size

/-- What a request is answered from: how long the list was when it was counted, and the list when
it was read. -/
structure Request (α : Type _) where
  total : Nat
  list : List α

/-- The pages of a reader who goes on until a page ends the list as it was counted; nothing if the
requests run out before. -/
def browse {α : Type _} (size : Nat) : Nat → List (Request α) → Option (List (List α))
  | _, [] => none
  | offset, r :: rest =>
      if r.total ≤ offset + size then some [page size offset r.list]
      else (browse size (offset + size) rest).map (page size offset r.list :: ·)

theorem browse_stable {α : Type _} {size offset n : Nat} {l : List α} {shown : List (List α)}
    (h : browse size offset (List.replicate n ⟨l.length, l⟩) = some shown) :
    shown.flatten = l.drop offset := by
  induction n generalizing offset shown with
  | zero => cases h
  | succ n ih =>
    rw [List.replicate_succ] at h
    unfold browse at h
    split at h
    · rename_i hend
      cases h
      dsimp only at hend
      rw [List.flatten_singleton]
      apply List.take_of_length_le
      rw [List.length_drop]
      dsimp only
      omega
    · obtain ⟨later, hlater, rfl⟩ := Option.map_eq_some_iff.mp h
      rw [List.flatten_cons, ih hlater, page, ← List.drop_drop, List.take_append_drop]

theorem browse_stable_isSome {α : Type _} {size n : Nat} {l : List α} (offset : Nat)
    (h : l.length ≤ offset + size * n) (hn : 0 < n) :
    (browse size offset (List.replicate n ⟨l.length, l⟩)).isSome := by
  induction n generalizing offset with
  | zero => exact absurd hn (Nat.lt_irrefl 0)
  | succ n ih =>
    rw [List.replicate_succ]
    unfold browse
    split
    · rfl
    · rename_i hmore
      dsimp only at hmore
      rw [Option.isSome_map]
      rw [Nat.mul_succ] at h
      apply ih (offset + size)
      · omega
      · apply Nat.pos_of_ne_zero
        rintro rfl
        omega

variable {ι : Type _} [DecidableEq ι] {l l' : List ι} {x y : ι} {size offset : Nat}

def ahead (l : List ι) (x : ι) : List ι := l.take (l.idxOf x)

def Consistent (l l' : List ι) : Prop :=
  ∀ x y, y ∈ ahead l x → x ∈ l → x ∈ l' → y ∈ l' → y ∈ ahead l' x

structure Look (α : Type _) extends Request α where
  offset : Nat

def Look.page {α : Type _} (size : Nat) (m : Look α) : List α := Browsing.page size m.offset m.list

end AutoPR.Browsing
