import Mathlib.Data.List.Infix

/-! The LIKE predicate of SQL: a pattern of characters, wildcards and escaped characters. A
quoted text between two wildcards is looked for as it stands. -/
namespace AutoPR.Like

variable {α : Type _}

structure Wildcards (α : Type _) where
  /-- Any text. -/
  many : α
  /-- Any character. -/
  one : α
  escape : α
  many_ne_escape : many ≠ escape
  one_ne_escape : one ≠ escape
  many_ne_one : many ≠ one

inductive Token (α : Type _) where
  | literal (c : α)
  | one
  | many
deriving DecidableEq

section
variable [DecidableEq α] (w : Wildcards α)

def Wildcards.special (c : α) : Bool := c = w.many || c = w.one || c = w.escape

def Wildcards.token (c : α) : Token α :=
  if c = w.many then .many else if c = w.one then .one else .literal c

def Wildcards.parse : List α → Option (List (Token α))
  | [] => some []
  | [c] => if c = w.escape then none else some [w.token c]
  | c :: d :: rest =>
      if c = w.escape then (parse rest).map (.literal d :: ·)
      else (parse (d :: rest)).map (w.token c :: ·)

def tokensMatch : List (Token α) → List α → Bool
  | [], text => text.isEmpty
  | .literal c :: tokens, d :: text => c = d && tokensMatch tokens text
  | .one :: tokens, _ :: text => tokensMatch tokens text
  | .literal _ :: _, [] | .one :: _, [] => false
  | .many :: tokens, text => text.tails.any (tokensMatch tokens)

/-- `text LIKE pattern ESCAPE w.escape`; none where the pattern is not valid. -/
def Wildcards.like (text pattern : List α) : Option Bool :=
  (w.parse pattern).map fun tokens => tokensMatch tokens text

def Wildcards.quote (text : List α) : List α :=
  text.flatMap fun c => if w.special c then [w.escape, c] else [c]

end

section
variable [DecidableEq α] {w : Wildcards α}

theorem Wildcards.parse_escaped (c : α) (rest : List α) :
    w.parse (w.escape :: c :: rest) = (w.parse rest).map (.literal c :: ·) := by
  rw [Wildcards.parse, if_pos rfl]

theorem Wildcards.parse_cons {c : α} (h : c ≠ w.escape) (rest : List α) :
    w.parse (c :: rest) = (w.parse rest).map (w.token c :: ·) := by
  cases rest with
  | nil =>
    simp only [Wildcards.parse, if_neg h]
    rfl
  | cons d rest => rw [Wildcards.parse, if_neg h]

theorem Wildcards.token_plain {c : α} (h : w.special c = false) : w.token c = .literal c := by
  unfold Wildcards.special at h
  simp only [Bool.or_eq_false_iff, decide_eq_false_iff_not] at h
  rw [Wildcards.token, if_neg h.1.1, if_neg h.1.2]

theorem Wildcards.parse_quote (text rest : List α) :
    w.parse (w.quote text ++ rest) = (w.parse rest).map (text.map .literal ++ ·) := by
  induction text with
  | nil => exact Option.map_id'.symm
  | cons c text ih =>
    have hstep : w.parse (w.quote (c :: text) ++ rest) =
        (w.parse (w.quote text ++ rest)).map (.literal c :: ·) := by
      unfold Wildcards.quote
      rw [List.flatMap_cons, List.append_assoc]
      cases hc : w.special c with
      | true => exact Wildcards.parse_escaped c _
      | false =>
        have hne : c ≠ w.escape := by
          rintro rfl
          simp [Wildcards.special] at hc
        rw [← Wildcards.token_plain hc]
        exact Wildcards.parse_cons hne _
    rw [hstep, ih, Option.map_map]
    rfl

theorem tokensMatch_literals (text : List α) (tokens : List (Token α)) (target : List α) :
    tokensMatch (text.map .literal ++ tokens) target = true ↔
      ∃ rest, target = text ++ rest ∧ tokensMatch tokens rest = true := by
  induction text generalizing target with
  | nil => simp
  | cons c text ih =>
    cases target with
    | nil => simp [tokensMatch]
    | cons d target =>
      rw [List.map_cons, List.cons_append, tokensMatch, Bool.and_eq_true, decide_eq_true_eq, ih]
      constructor
      · rintro ⟨rfl, rest, rfl, hrest⟩
        exact ⟨rest, rfl, hrest⟩
      · rintro ⟨rest, heq, hrest⟩
        obtain ⟨rfl, rfl⟩ := List.cons.inj heq
        exact ⟨rfl, rest, rfl, hrest⟩

theorem tokensMatch_many (tokens : List (Token α)) (target : List α) :
    tokensMatch (.many :: tokens) target = true ↔
      ∃ front rest, target = front ++ rest ∧ tokensMatch tokens rest = true := by
  rw [tokensMatch, List.any_eq_true]
  constructor
  · rintro ⟨rest, hrest, hmatch⟩
    obtain ⟨front, rfl⟩ := (List.mem_tails _ _).mp hrest
    exact ⟨front, rest, rfl, hmatch⟩
  · rintro ⟨front, rest, rfl, hmatch⟩
    exact ⟨rest, (List.mem_tails _ _).mpr (List.suffix_append _ _), hmatch⟩

theorem tokensMatch_rest (target : List α) : tokensMatch [.many] target = true :=
  (tokensMatch_many [] target).mpr ⟨target, [], (List.append_nil _).symm, rfl⟩

def Wildcards.anywhere (w : Wildcards α) (text : List α) : List α :=
  w.many :: (w.quote text ++ [w.many])

theorem Wildcards.parse_anywhere (text : List α) :
    w.parse (w.anywhere text) = some (.many :: (text.map .literal ++ [.many])) := by
  have hmany : w.token w.many = .many := if_pos rfl
  unfold Wildcards.anywhere
  rw [Wildcards.parse_cons w.many_ne_escape, Wildcards.parse_quote,
    Wildcards.parse_cons w.many_ne_escape, hmany]
  rfl

theorem Wildcards.like_anywhere (text target : List α) :
    w.like target (w.anywhere text) = some true ↔ text <:+: target := by
  unfold Wildcards.like
  rw [Wildcards.parse_anywhere, Option.map_some, Option.some.injEq, tokensMatch_many]
  constructor
  · rintro ⟨front, rest, rfl, hrest⟩
    obtain ⟨back, rfl, -⟩ := (tokensMatch_literals text [.many] rest).mp hrest
    exact ⟨front, back, List.append_assoc _ _ _⟩
  · rintro ⟨front, back, rfl⟩
    refine ⟨front, text ++ back, List.append_assoc _ _ _, ?_⟩
    exact (tokensMatch_literals text [.many] _).mpr ⟨back, rfl, tokensMatch_rest back⟩

end

end AutoPR.Like
