import Mathlib.Data.List.Forall2

/-! Regular expressions, matched in the order of a backtracking matcher: the first of
the matches counts. -/
namespace AutoPR.Pattern

inductive Regex where
  | empty
  | char (accepts : Char → Bool)
  | seq (first second : Regex)
  | alt (first second : Regex)
  /-- Between a character of a word and one that is none. -/
  | boundary (word : Char → Bool)

structure Place where
  /-- The character in front of the match. -/
  before : Option Char
  /-- What the match has consumed, backwards. -/
  taken : List Char
  rest : List Char
deriving DecidableEq

def Place.previous (p : Place) : Option Char := p.taken.head?.or p.before

namespace Regex

def run : Regex → Place → List Place
  | .empty, p => [p]
  | .char accepts, p =>
      match p.rest with
      | c :: rest => if accepts c then [{ p with taken := c :: p.taken, rest := rest }] else []
      | [] => []
  | .seq first second, p => (first.run p).flatMap second.run
  | .alt first second, p => first.run p ++ second.run p
  | .boundary word, p => if p.previous.any word != p.rest.head?.any word then [p] else []

def optional (r : Regex) : Regex := .alt r .empty

def upTo : Nat → Regex → Regex
  | 0, _ => .empty
  | n + 1, r => optional (.seq r (upTo n r))

/-- The characters of a literal, as far as the comparison tells them apart. -/
def literal (same : Char → Char → Bool) : List Char → Regex
  | [] => .empty
  | c :: rest => .seq (.char (same c)) (literal same rest)

def matchPrefix (r : Regex) (text : List Char) : Option (List Char × List Char) :=
  (r.run ⟨none, [], text⟩).head?.map fun p => (p.taken.reverse, p.rest)

/-- The leftmost match of a text that stands after a character: what it has consumed. -/
def searchFrom (r : Regex) (before : Option Char) : List Char → Option (List Char)
  | [] => (r.run ⟨before, [], []⟩).head?.map fun p => p.taken.reverse
  | c :: rest =>
      match (r.run ⟨before, [], c :: rest⟩).head? with
      | some p => some p.taken.reverse
      | none => r.searchFrom (some c) rest

def search (r : Regex) (text : List Char) : Option (List Char) := r.searchFrom none text

variable {same : Char → Char → Bool} {r first second : Regex} {p q : Place}

theorem run_seq (first second : Regex) (p : Place) :
    (seq first second).run p = (first.run p).flatMap second.run := rfl

theorem run_alt (first second : Regex) (p : Place) :
    (alt first second).run p = first.run p ++ second.run p := rfl

theorem run_boundary (word : Char → Bool) (p : Place) :
    (boundary word).run p =
      if p.previous.any word != p.rest.head?.any word then [p] else [] := rfl

theorem run_char_cons {accepts : Char → Bool} {c : Char} {rest : List Char}
    (h : p.rest = c :: rest) : (char accepts).run p =
      if accepts c then [{ p with taken := c :: p.taken, rest := rest }] else [] := by
  obtain ⟨before, taken, _⟩ := p
  cases h
  rfl

theorem run_char_end {accepts : Char → Bool} (h : p.rest = []) : (char accepts).run p = [] := by
  obtain ⟨before, taken, _⟩ := p
  cases h
  rfl

theorem mem_run_seq : q ∈ (seq first second).run p ↔ ∃ m ∈ first.run p, q ∈ second.run m := by
  rw [run_seq, List.mem_flatMap]

theorem mem_run_alt : q ∈ (alt first second).run p ↔ q ∈ first.run p ∨ q ∈ second.run p := by
  rw [run_alt, List.mem_append]

theorem mem_run_char {accepts : Char → Bool} (h : q ∈ (char accepts).run p) :
    ∃ c, accepts c = true ∧ p.rest = c :: q.rest ∧ q.taken = c :: p.taken := by
  cases hrest : p.rest with
  | nil =>
    rw [run_char_end hrest] at h
    cases h
  | cons c rest =>
    rw [run_char_cons hrest] at h
    split at h
    · rename_i haccepts
      cases List.mem_singleton.mp h
      exact ⟨c, haccepts, rfl, rfl⟩
    · cases h

theorem mem_run_boundary_iff {word : Char → Bool} :
    q ∈ (boundary word).run p ↔ q = p ∧ p.previous.any word ≠ p.rest.head?.any word := by
  rw [run_boundary]
  split
  · rename_i hdiffer
    simp only [List.mem_singleton, iff_self_and]
    intro _
    simpa using hdiffer
  · rename_i hsame
    simp only [List.not_mem_nil, false_iff, not_and]
    intro _
    simpa using hsame

theorem mem_run_boundary {word : Char → Bool} (h : q ∈ (boundary word).run p) : q = p :=
  (mem_run_boundary_iff.mp h).1

theorem mem_run_literal_rest {cs : List Char} (h : q ∈ (literal same cs).run p) :
    ∃ text, List.Forall₂ (fun c d => same c d = true) cs text ∧
      q.taken = text.reverse ++ p.taken ∧ p.rest = text ++ q.rest := by
  induction cs generalizing p with
  | nil =>
    cases List.mem_singleton.mp h
    exact ⟨[], .nil, rfl, rfl⟩
  | cons c rest ih =>
    obtain ⟨m, hm, hq⟩ := mem_run_seq.mp h
    obtain ⟨d, hd, hrest, htaken⟩ := mem_run_char hm
    obtain ⟨text, hall, heq, hsplit⟩ := ih hq
    refine ⟨d :: text, .cons hd hall, ?_, ?_⟩
    · rw [heq, htaken, List.reverse_cons, List.append_assoc]
      rfl
    · rw [hrest, hsplit]
      rfl

theorem mem_run_literal {cs : List Char} (h : q ∈ (literal same cs).run p) :
    ∃ text, List.Forall₂ (fun c d => same c d = true) cs text ∧ q.taken = text.reverse ++ p.taken := by
  obtain ⟨text, hall, htaken, -⟩ := mem_run_literal_rest h
  exact ⟨text, hall, htaken⟩

theorem matchPrefix_eq_some {text taken rest : List Char}
    (h : r.matchPrefix text = some (taken, rest)) :
    ∃ p ∈ r.run ⟨none, [], text⟩, p.taken.reverse = taken ∧ p.rest = rest := by
  obtain ⟨p, hp, heq⟩ := Option.map_eq_some_iff.mp h
  cases heq
  exact ⟨p, List.mem_of_head? hp, rfl, rfl⟩

def lead (r : Regex) (p : Place) : Option Place := (r.run p).head?

theorem lead_of_run (h : r.run p = [q]) : r.lead p = some q := by
  unfold lead
  rw [h]
  rfl

theorem lead_empty : empty.lead p = some p := rfl

theorem lead_seq {m : Place} (hfirst : first.lead p = some m) (hsecond : second.lead m = some q) :
    (seq first second).lead p = some q := by
  unfold lead
  rw [run_seq]
  obtain ⟨others, heq⟩ := List.head?_eq_some_iff.mp hfirst
  rw [heq, List.flatMap_cons, List.head?_append]
  unfold lead at hsecond
  rw [hsecond]
  rfl

theorem lead_left (h : first.lead p = some q) : (alt first second).lead p = some q := by
  unfold lead
  rw [run_alt, List.head?_append]
  unfold lead at h
  rw [h]
  rfl

theorem lead_right (hnone : first.run p = []) (h : second.lead p = some q) :
    (alt first second).lead p = some q := by
  unfold lead
  rw [run_alt, hnone, List.nil_append]
  exact h

theorem lead_boundary {word : Char → Bool}
    (h : p.previous.any word ≠ p.rest.head?.any word) : (boundary word).lead p = some p := by
  apply lead_of_run
  rw [run_boundary, if_pos]
  simpa using h

theorem run_char {accepts : Char → Bool} {c : Char} {rest : List Char} (hrest : p.rest = c :: rest)
    (hc : accepts c = true) :
    (char accepts).run p = [{ p with taken := c :: p.taken, rest := rest }] := by
  rw [run_char_cons hrest]
  exact if_pos hc

theorem run_char_nil {accepts : Char → Bool}
    (h : ∀ c, p.rest.head? = some c → accepts c = false) : (char accepts).run p = [] := by
  cases hrest : p.rest with
  | nil => exact run_char_end hrest
  | cons c rest =>
    have hc : accepts c = false := by
      apply h
      rw [hrest]
      rfl
    rw [run_char_cons hrest, hc]
    rfl

theorem run_seq_nil (h : first.run p = []) : (seq first second).run p = [] := by
  rw [run_seq, h]
  rfl

theorem run_literal {cs text rest : List Char} {before : Option Char} {taken : List Char}
    (h : List.Forall₂ (fun c d => same c d = true) cs text) :
    (literal same cs).run ⟨before, taken, text ++ rest⟩ =
      [⟨before, text.reverse ++ taken, rest⟩] := by
  induction h generalizing taken with
  | nil => rfl
  | @cons c d cs text hc hall ih =>
    unfold literal
    rw [run_seq, run_char rfl hc, List.flatMap_cons, List.flatMap_nil, List.append_nil, List.reverse_cons,
      List.append_assoc]
    exact ih

theorem run_literal_nil {c : Char} {cs : List Char}
    (h : ∀ d, p.rest.head? = some d → same c d = false) : (literal same (c :: cs)).run p = [] :=
  run_seq_nil (run_char_nil h)

theorem lead_upTo (accepts : Char → Bool) (n : Nat) (before : Option Char)
    (taken text : List Char) :
    ∃ rest, (upTo n (char accepts)).lead ⟨before, taken, text⟩ =
      some ⟨before, ((text.takeWhile accepts).take n).reverse ++ taken, rest⟩ := by
  induction n generalizing taken text with
  | zero => exact ⟨text, by simp [upTo, lead_empty]⟩
  | succ n ih =>
    unfold upTo optional
    cases text with
    | nil => exact ⟨[], lead_right (run_seq_nil rfl) lead_empty⟩
    | cons c text =>
      by_cases hc : accepts c = true
      · obtain ⟨rest, hrest⟩ := ih (c :: taken) text
        refine ⟨rest, lead_left (lead_seq (lead_of_run (run_char rfl hc)) ?_)⟩
        rw [hrest, List.takeWhile_cons_of_pos hc, List.take_succ_cons, List.reverse_cons,
          List.append_assoc]
        rfl
      · have hnone : (char accepts).run ⟨before, taken, c :: text⟩ = [] := by
          apply run_char_nil
          intro d hd
          cases hd
          simpa using hc
        refine ⟨c :: text, ?_⟩
        rw [List.takeWhile_cons_of_neg hc]
        exact lead_right (run_seq_nil hnone) lead_empty

theorem matchPrefix_of_lead {text taken rest : List Char} {before : Option Char}
    (h : r.lead ⟨none, [], text⟩ = some ⟨before, taken.reverse, rest⟩) :
    r.matchPrefix text = some (taken, rest) := by
  unfold matchPrefix
  unfold lead at h
  rw [h]
  simp

theorem searchFrom_of_lead {text : List Char} {before : Option Char}
    (h : r.lead ⟨before, [], text⟩ = some q) : r.searchFrom before text = some q.taken.reverse := by
  unfold lead at h
  cases text with
  | nil =>
    unfold searchFrom
    rw [h]
    rfl
  | cons c rest =>
    unfold searchFrom
    rw [h]

theorem searchFrom_skip {c : Char} {rest : List Char} {before : Option Char}
    (h : r.run ⟨before, [], c :: rest⟩ = []) :
    r.searchFrom before (c :: rest) = r.searchFrom (some c) rest := by
  conv_lhs => unfold searchFrom
  rw [h]
  rfl

theorem searchFrom_end {before : Option Char} (h : r.run ⟨before, [], []⟩ = []) :
    r.searchFrom before [] = none := by
  unfold searchFrom
  rw [h]
  rfl

end Regex

end AutoPR.Pattern
