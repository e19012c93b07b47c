import AutoPR.Library.Pattern
import AutoPR.Library.Python

/-! The commands of a pull request comment. Only its first line with content counts. -/
namespace AutoPR.Commands
open Python Pattern

structure Command where
  verb : String
  decisionId : Option Nat
deriving DecidableEq

/-- A letter of an expression against a character, without regard to case: the long s is
a case of s, which `str.lower` leaves as it is. -/
def ignoreCase (letter c : Char) : Bool := c.toLower = letter || (letter = 's' && c = 'ſ')

def word (text : String) : Regex := .literal ignoreCase text.toList

def isWord (u : Unicode) (c : Char) : Bool := u.alnum c || c = '_'

def prefixRegex (u : Unicode) : Regex :=
  .seq (word "/auto") (.seq (.optional (word "-")) (.seq (word "pr")
    (.seq (.optional (word "-bot")) (.boundary (isWord u)))))

def verbRegex (u : Unicode) : Regex :=
  .seq (.alt (word "approve") (.alt (word "reject") (.alt (word "status") (word "help"))))
    (.boundary (isWord u))

def idRegex (u : Unicode) : Regex :=
  let digit := Regex.char fun c => (u.digit c).isSome
  .seq (.optional (.char (· = '#'))) (.seq digit (.upTo 11 digit))

/-- The first line with content, which decides. -/
def contentLine (body : String) : Option String :=
  ((splitLines body).map strip).find? (· ≠ "")

def parseLine (u : Unicode) (line : String) : Option Command :=
  match (prefixRegex u).matchPrefix line.toList with
  | none => none
  | some (_, tail) =>
      let rest := strip (String.ofList tail)
      if rest = "" then some ⟨"help", none⟩
      else
        match (verbRegex u).matchPrefix rest.toList with
        | none => none
        | some (group, tail) =>
            let verb := u.lower (String.ofList group)
            if verb = "status" || verb = "help" then some ⟨verb, none⟩
            else
              match (idRegex u).search tail with
              | none => some ⟨verb, none⟩
              | some found => some ⟨verb, parseNat u (found.dropWhile (· = '#'))⟩

def parseCommand (u : Unicode) (body : PyVal) : Py (Option Command) :=
  match body.or (.str "") with
  | .str s => pure ((contentLine s).bind (parseLine u))
  | _ => throw .attributeError

example : parseCommand .ascii (.str "\n\n  /AutoPR-bot Approve #42 please\n") =
    .ok (some ⟨"approve", some 42⟩) := by decide

/-- The spellings of "status" that the expression takes and `str.lower` keeps. -/
def longStatus : List String := ["ſtatus", "statuſ", "ſtatuſ"]

section
variable {u : Unicode} {letters text : List Char}

theorem toLower_ascii {c : Char} (h : c.toLower.toNat < 128) : c.toNat < 128 := by
  unfold Char.toLower at h
  split at h
  · rename_i hupper
    have hle : c.val.toNat ≤ 90 := UInt32.le_iff_toNat_le.mp hupper.2
    exact Nat.lt_of_le_of_lt hle (by decide)
  · exact h

theorem lower_match (hletters : ∀ l ∈ letters, l.toNat < 128)
    (h : List.Forall₂ (fun l c => ignoreCase l c = true) letters text) :
    u.lower (String.ofList text) = String.ofList (text.map Char.toLower) := by
  have hall : text.all lowersInAscii = true := by
    induction h with
    | nil => rfl
    | cons hc _ ih =>
      obtain ⟨hl, hrest⟩ := List.forall_mem_cons.mp hletters
      rw [List.all_cons, ih hrest, Bool.and_true]
      simp only [ignoreCase, Bool.or_eq_true, decide_eq_true_eq, Bool.and_eq_true] at hc
      simp only [lowersInAscii, Bool.or_eq_true, decide_eq_true_eq]
      obtain rfl | ⟨-, hlong⟩ := hc
      · exact .inl (toLower_ascii hl)
      · exact .inr hlong
  have hlower := u.lower_ascii (String.ofList text) (by simpa using hall)
  simpa using hlower

theorem lowered_match (h : List.Forall₂ (fun l c => ignoreCase l c = true) letters text) :
    List.Forall₂ (fun l c => c = l ∨ (l = 's' ∧ c = 'ſ')) letters (text.map Char.toLower) := by
  rw [List.forall₂_map_right_iff]
  refine h.imp fun l c hc => ?_
  simp only [ignoreCase, Bool.or_eq_true, decide_eq_true_eq, Bool.and_eq_true] at hc
  obtain hc | ⟨rfl, rfl⟩ := hc
  · exact .inl hc
  · exact .inr ⟨rfl, by decide⟩

theorem lowered_eq (hplain : 's' ∉ letters)
    (h : List.Forall₂ (fun l c => c = l ∨ (l = 's' ∧ c = 'ſ')) letters text) : text = letters := by
  induction h with
  | nil => rfl
  | cons hc _ ih =>
    rw [List.mem_cons, not_or] at hplain
    obtain rfl | ⟨rfl, -⟩ := hc
    · rw [ih hplain.2]
    · exact absurd rfl hplain.1

theorem lowered_status
    (h : List.Forall₂ (fun l c => c = l ∨ (l = 's' ∧ c = 'ſ')) "status".toList text) :
    String.ofList text ∈ "status" :: longStatus := by
  have hletters : "status".toList = ['s', 't', 'a', 't', 'u', 's'] := by decide
  simp only [hletters, List.forall₂_cons_left_iff, List.forall₂_nil_left_iff, Char.reduceEq,
    false_and, or_false, true_and] at h
  obtain ⟨c, _, hfirst, ⟨_, _, rfl, ⟨_, _, rfl, ⟨_, _, rfl, ⟨_, _, rfl, ⟨d, _, hlast, rfl, rfl⟩, rfl⟩,
    rfl⟩, rfl⟩, rfl⟩, rfl⟩ := h
  obtain rfl | rfl := hfirst <;> obtain rfl | rfl := hlast <;> decide

theorem word_match {literal : String} {p q : Place} (hascii : ∀ l ∈ literal.toList, l.toNat < 128)
    (hstart : p.taken = []) (h : q ∈ (word literal).run p) :
    ∃ lowered, u.lower (String.ofList q.taken.reverse) = String.ofList lowered ∧
      List.Forall₂ (fun l c => c = l ∨ (l = 's' ∧ c = 'ſ')) literal.toList lowered := by
  obtain ⟨found, hall, htaken⟩ := Regex.mem_run_literal h
  rw [htaken, hstart, List.append_nil, List.reverse_reverse]
  exact ⟨_, lower_match hascii hall, lowered_match hall⟩

theorem plain_match {literal : String} {p q : Place} (hascii : ∀ l ∈ literal.toList, l.toNat < 128)
    (hplain : 's' ∉ literal.toList) (hstart : p.taken = []) (h : q ∈ (word literal).run p) :
    u.lower (String.ofList q.taken.reverse) = literal := by
  obtain ⟨lowered, heq, hall⟩ := word_match (u := u) hascii hstart h
  rw [heq, lowered_eq hplain hall, String.ofList_toList]

theorem verb_match {group tail text : List Char}
    (h : (verbRegex u).matchPrefix text = some (group, tail)) :
    u.lower (String.ofList group) ∈ ["approve", "reject", "status", "help"] ∨
      u.lower (String.ofList group) ∈ longStatus := by
  obtain ⟨p, hp, rfl, -⟩ := Regex.matchPrefix_eq_some h
  obtain ⟨m, hm, hboundary⟩ := Regex.mem_run_seq.mp hp
  rw [Regex.mem_run_boundary hboundary]
  obtain happrove | hm := Regex.mem_run_alt.mp hm
  · rw [plain_match (by simp) (by decide) rfl happrove]
    exact .inl (by decide)
  obtain hreject | hm := Regex.mem_run_alt.mp hm
  · rw [plain_match (by simp) (by decide) rfl hreject]
    exact .inl (by decide)
  obtain hstatus | hhelp := Regex.mem_run_alt.mp hm
  · obtain ⟨lowered, heq, hall⟩ := word_match (u := u) (by simp) rfl hstatus
    rw [heq]
    obtain hplain | hlong := List.mem_cons.mp (lowered_status hall)
    · rw [hplain]
      exact .inl (by decide)
    · exact .inr hlong
  · rw [plain_match (by simp) (by decide) rfl hhelp]
    exact .inl (by decide)

theorem parseLine_verb {line verb : String} {d : Nat} (h : parseLine u line = some ⟨verb, some d⟩) :
    verb = "approve" ∨ verb = "reject" ∨ verb ∈ longStatus := by
  unfold parseLine at h
  split at h
  · cases h
  · simp only at h
    split at h
    · cases h
    · split at h
      · cases h
      · rename_i group tail hmatch
        split at h
        · cases h
        · rename_i hother
          have hverb : u.lower (String.ofList group) = verb := by
            split at h
            · cases h
            · exact congrArg Command.verb (Option.some.inj h)
          rw [hverb] at hother
          have hlisted := verb_match hmatch
          rw [hverb] at hlisted
          simp only [List.mem_cons, List.not_mem_nil, or_false] at hlisted
          simp only [Bool.or_eq_true, decide_eq_true_eq, not_or] at hother
          obtain (happrove | hreject | hstatus | hhelp) | hlong := hlisted
          · exact .inl happrove
          · exact .inr (.inl hreject)
          · exact absurd hstatus hother.1
          · exact absurd hhelp hother.2
          · exact .inr (.inr hlong)

end

end AutoPR.Commands
