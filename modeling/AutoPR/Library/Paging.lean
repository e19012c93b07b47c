import Mathlib.Data.Nat.Init

/-! A list that is read page by page until a page is not full. The loop need not end, so it runs
with fuel: one unit for each request. -/
namespace AutoPR.Paging

variable {α β : Type _}

inductive Progress (β : Type _) where
  | returned (out : List β)
  | raised
  /-- Out of fuel. -/
  | running
deriving DecidableEq

def collect (size : Nat) (f : α → β) (serve : Nat → Option (List α)) :
    Nat → Nat → List β → Progress β
  | 0, _, _ => .running
  | fuel + 1, page, out =>
      match serve page with
      | none => .raised
      | some batch =>
          if batch.length < size then .returned (out ++ batch.map f)
          else collect size f serve fuel (page + 1) (out ++ batch.map f)

def stable (size : Nat) (l : List α) (page : Nat) : Option (List α) :=
  some ((l.drop (size * (page - 1))).take size)

variable {size : Nat} {f : α → β} {l : List α}

theorem collect_from (hsize : 0 < size) (fuel k : Nat) (out : List β) :
    collect size f (stable size l) fuel (k + 1) out =
      if (l.drop (size * k)).length / size < fuel then
        .returned (out ++ (l.drop (size * k)).map f) else .running := by
  induction fuel generalizing k out with
  | zero => rfl
  | succ fuel ih =>
    have hserve : stable size l (k + 1) = some ((l.drop (size * k)).take size) := rfl
    unfold collect
    rw [hserve]
    dsimp only
    by_cases hlast : (l.drop (size * k)).length < size
    · have hzero : (l.drop (size * k)).length / size = 0 := Nat.div_eq_of_lt hlast
      rw [List.take_of_length_le (Nat.le_of_lt hlast), if_pos hlast, hzero, if_pos (Nat.succ_pos fuel)]
    · have hfull : ((l.drop (size * k)).take size).length = size := by
        rw [List.length_take]
        omega
      have hnext : l.drop (size * (k + 1)) = (l.drop (size * k)).drop size := by
        rw [List.drop_drop, Nat.mul_succ]
      have hpages : (l.drop (size * k)).length / size =
          ((l.drop (size * k)).drop size).length / size + 1 := by
        rw [List.length_drop (l := l.drop _), ← Nat.div_eq_sub_div hsize (Nat.not_lt.mp hlast)]
      rw [hfull, if_neg (Nat.lt_irrefl _), ih, hnext, hpages, List.append_assoc, ← List.map_append,
        List.take_append_drop]
      simp only [Nat.add_lt_add_iff_right]

/-- Every element is collected once, in order, by one request for each full page and another one,
which may find nothing. -/
theorem collect_stable (hsize : 0 < size) (fuel : Nat) :
    collect size f (stable size l) fuel 1 [] =
      if l.length / size < fuel then .returned (l.map f) else .running := by
  rw [collect_from hsize fuel 0 [], Nat.mul_zero, List.drop_zero, List.nil_append]

end AutoPR.Paging
