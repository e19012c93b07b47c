import AutoPR.Library.Python
import Mathlib.Data.List.DropRight

/-! What `strip` takes away. -/
namespace AutoPR.Python

structure Trimmed (cs : List Char) : Prop where
  front : ∀ c, cs.head? = some c → isSpace c = false
  back : ∀ c, cs.getLast? = some c → isSpace c = false

theorem toList_strip (s : String) :
    (strip s).toList = (s.toList.dropWhile isSpace).rdropWhile isSpace := by
  unfold strip stripOf List.rdropWhile
  rw [String.toList_ofList]

theorem head?_dropWhile {c : Char} {cs : List Char}
    (h : (cs.dropWhile isSpace).head? = some c) : isSpace c = false := by
  have hnot := List.head?_dropWhile_not isSpace cs
  rw [h] at hnot
  simpa using hnot

theorem dropWhile_of_front {cs : List Char}
    (h : ∀ c, cs.head? = some c → isSpace c = false) : cs.dropWhile isSpace = cs := by
  cases cs with
  | nil => rfl
  | cons c rest =>
    apply List.dropWhile_cons_of_neg
    rw [h c rfl]
    exact Bool.false_ne_true

theorem strip_trimmed (s : String) : Trimmed (strip s).toList := by
  rw [toList_strip]
  constructor
  · intro c hc
    obtain ⟨tail, htail⟩ := List.rdropWhile_prefix isSpace (s.toList.dropWhile isSpace)
    apply @head?_dropWhile c s.toList
    rw [← htail, List.head?_append, hc]
    rfl
  · intro c hc
    rw [List.rdropWhile, List.getLast?_reverse] at hc
    exact head?_dropWhile hc

theorem strip_of_trimmed {cs tail : List Char} (h : Trimmed cs)
    (htail : ∀ c ∈ tail, isSpace c = true) :
    strip (String.ofList (cs ++ tail)) = String.ofList cs := by
  have hback : cs.reverse.dropWhile isSpace = cs.reverse := by
    apply dropWhile_of_front
    intro c hc
    rw [List.head?_reverse] at hc
    exact h.back c hc
  cases cs with
  | nil =>
    have hnil : tail.dropWhile isSpace = [] := List.dropWhile_eq_nil_iff.mpr htail
    unfold strip stripOf
    simp [hnil]
  | cons c rest =>
    have hfront : ((c :: rest) ++ tail).dropWhile isSpace = (c :: rest) ++ tail := by
      apply dropWhile_of_front
      intro d hd
      exact h.front d hd
    unfold strip stripOf
    rw [String.toList_ofList, hfront, List.reverse_append, List.dropWhile_append_of_pos, hback,
      List.reverse_reverse]
    intro d hd
    exact htail d (List.mem_reverse.mp hd)

section
variable {p t q : List Char}

theorem dropWhile_append_of_front {f : Char → Bool} (hne : t ≠ [])
    (h : ∀ c, t.head? = some c → f c = false) :
    (p ++ t).dropWhile f = p.dropWhile f ++ t := by
  cases t with
  | nil => exact absurd rfl hne
  | cons c t =>
    have hc : f c = false := h c rfl
    rw [List.dropWhile_append]
    split
    · rename_i hempty
      rw [List.isEmpty_iff.mp hempty, List.dropWhile_cons_of_neg (ne_true_of_eq_false hc)]
      rfl
    · rfl

theorem rdropWhile_append_of_back {f : Char → Bool} (hne : t ≠ [])
    (h : ∀ c, t.getLast? = some c → f c = false) :
    (t ++ q).rdropWhile f = t ++ q.rdropWhile f := by
  unfold List.rdropWhile
  rw [List.reverse_append, dropWhile_append_of_front]
  · rw [List.reverse_append, List.reverse_reverse]
  · rwa [ne_eq, List.reverse_eq_nil_iff]
  · intro c hc
    rw [List.head?_reverse] at hc
    exact h c hc

theorem strip_split (cs : List Char) :
    ∃ front back, cs = front ++ ((strip (String.ofList cs)).toList ++ back) ∧
      (∀ c ∈ front, isSpace c = true) ∧ ∀ c ∈ back, isSpace c = true := by
  refine ⟨cs.takeWhile isSpace, (cs.dropWhile isSpace).rtakeWhile isSpace, ?_, ?_, ?_⟩
  · rw [toList_strip, String.toList_ofList, List.rdropWhile_append_rtakeWhile,
      List.takeWhile_append_dropWhile]
  · exact fun c hc => List.mem_takeWhile_imp hc
  · exact fun c hc => List.mem_rtakeWhile_imp hc

theorem strip_embedded (hne : t ≠ []) (ht : Trimmed t) :
    (strip (String.ofList (p ++ (t ++ q)))).toList =
      p.dropWhile isSpace ++ (t ++ q.rdropWhile isSpace) := by
  rw [toList_strip, String.toList_ofList]
  rw [dropWhile_append_of_front]
  · cases hp : p.dropWhile isSpace with
    | nil =>
      rw [List.nil_append, List.nil_append]
      exact rdropWhile_append_of_back hne ht.back
    | cons c rest =>
      rw [← List.append_assoc, rdropWhile_append_of_back, List.append_assoc]
      · simp
      · intro d hd
        rw [List.getLast?_append_of_ne_nil _ hne] at hd
        exact ht.back d hd
  · simp [hne]
  · intro c hc
    rw [List.head?_append_of_ne_nil _ hne] at hc
    exact ht.front c hc

end

theorem strip_surrounded {s : String} {front back : List Char} (hne : s ≠ "")
    (hs : Trimmed s.toList) (hfront : ∀ c ∈ front, isSpace c = true)
    (hback : ∀ c ∈ back, isSpace c = true) :
    strip (String.ofList (front ++ (s.toList ++ back))) = s := by
  have hchars : s.toList ≠ [] := fun h => hne (String.toList_eq_nil_iff.mp h)
  rw [← String.toList_inj, strip_embedded hchars hs, List.dropWhile_eq_nil_iff.mpr hfront,
    List.rdropWhile_eq_nil_iff.mpr hback, List.nil_append, List.append_nil]

end AutoPR.Python
