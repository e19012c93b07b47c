import Mathlib.Data.List.Basic

/-! Fenced code blocks of CommonMark: lines, backtick fences, and what the block below an opening
fence takes. A writer that puts a text between two fences learns when the block is that text. -/
namespace AutoPR.Markdown

abbrev Line := List Char

/-- The lines of a text, after the reversed beginning of the first one. A line ends with a
newline, a carriage return or both. -/
def linesAfter (line : Line) : List Char → List Line
  | [] => if line = [] then [] else [line.reverse]
  | '\r' :: '\n' :: rest => line.reverse :: linesAfter [] rest
  | c :: rest =>
      if c = '\n' ∨ c = '\r' then line.reverse :: linesAfter [] rest
      else linesAfter (c :: line) rest

def linesOf (text : List Char) : List Line := linesAfter [] text

def unindent : Nat → Line → Line
  | n + 1, ' ' :: rest => unindent n rest
  | _, line => line

def ticks (line : Line) : Nat := ((unindent 3 line).takeWhile (· = '`')).length

def afterTicks (line : Line) : List Char := (unindent 3 line).dropWhile (· = '`')

/-- The length of the fence that the line opens. Its info string holds no backtick. -/
def opens (line : Line) : Option Nat :=
  if 3 ≤ ticks line ∧ '`' ∉ afterTicks line then some (ticks line) else none

/-- The line closes a fence of `n` backticks: it has as many or more, and nothing but blanks. -/
def closes (n : Nat) (line : Line) : Bool :=
  n ≤ ticks line && (afterTicks line).all fun c => c = ' ' || c = '\t'

structure CodeBlock where
  content : List Line
  /-- What stands below the closing line, if a line closes the block. -/
  below : Option (List Line)
deriving DecidableEq

def CodeBlock.extend (line : Line) (block : CodeBlock) : CodeBlock :=
  { block with content := line :: block.content }

/-- The block below an opening fence of `n` backticks. -/
def block (n : Nat) : List Line → CodeBlock
  | [] => ⟨[], none⟩
  | line :: rest => if closes n line then ⟨[], some rest⟩ else (block n rest).extend line

/-- The block that the line at a place of the document opens. -/
def blockAt (document : List Line) (place : Nat) : Option CodeBlock := do
  let opening ← document[place]?
  let n ← opens opening
  return block n (document.drop (place + 1))

theorem linesAfter_nil (line : Line) :
    linesAfter line [] = if line = [] then [] else [line.reverse] := rfl

theorem linesAfter_end (line : Line) : linesAfter line ['\n'] = [line.reverse] := rfl

theorem linesAfter_return {line rest : List Char} {c : Char} (h : c ≠ '\n') :
    linesAfter line ('\r' :: c :: rest) = line.reverse :: linesOf (c :: rest) := by
  rw [linesAfter]
  · rfl
  · rintro rest' - heq
    cases heq
    exact h rfl

theorem linesAfter_other {line rest : List Char} {c : Char} (hnewline : c ≠ '\n')
    (hreturn : c ≠ '\r') : linesAfter line (c :: rest) = linesAfter (c :: line) rest := by
  rw [linesAfter, if_neg]
  · rintro (h | h)
    · exact hnewline h
    · exact hreturn h
  · intro rest' heq
    exact absurd heq hreturn

theorem linesAfter_newline (line : Line) (text rest : List Char) :
    linesAfter line (text ++ '\n' :: rest) =
      linesAfter line (text ++ ['\n']) ++ linesOf rest := by
  fun_induction linesAfter line text with
  | case1 | case2 => rfl
  | case3 line text ih => exact congrArg (line.reverse :: ·) ih
  | case4 line c text hbreak hend ih =>
    obtain rfl | rfl := hend
    · exact congrArg (line.reverse :: ·) ih
    · cases text with
      | nil => rfl
      | cons d text =>
        have hd : d ≠ '\n' := by
          rintro rfl
          exact hbreak text rfl rfl
        simp only [List.cons_append, linesAfter_return hd]
        exact congrArg (line.reverse :: ·) ih
  | case5 line c text hbreak hend ih =>
    obtain ⟨hnewline, hreturn⟩ := not_or.mp hend
    simp only [List.cons_append, linesAfter_other hnewline hreturn]
    exact ih

theorem linesOf_newline (text rest : List Char) :
    linesOf (text ++ '\n' :: rest) = linesOf (text ++ ['\n']) ++ linesOf rest :=
  linesAfter_newline [] text rest

def Plain (text : List Char) : Prop := ∀ c ∈ text, c ≠ '\n' ∧ c ≠ '\r'

theorem linesAfter_plain {line text rest : List Char} (h : Plain text) :
    linesAfter line (text ++ rest) = linesAfter (text.reverse ++ line) rest := by
  induction text generalizing line with
  | nil => rfl
  | cons c text ih =>
    obtain ⟨hnewline, hreturn⟩ := h c List.mem_cons_self
    rw [List.cons_append, linesAfter_other hnewline hreturn,
      ih fun d hd => h d (List.mem_cons_of_mem c hd)]
    simp

/-- The lines that a piece takes up in a document of pieces that newlines separate. -/
def rows (piece : List Char) : List Line := linesOf (piece ++ ['\n'])

theorem linesOf_join (above : List (List Char)) {piece : List Char} {rest : List (List Char)} :
    linesOf (['\n'].intercalate (above ++ piece :: rest)) =
      above.flatMap rows ++ linesOf (['\n'].intercalate (piece :: rest)) := by
  induction above with
  | nil => rfl
  | cons first above ih =>
    have hjoin : ['\n'].intercalate (first :: (above ++ piece :: rest)) =
        first ++ '\n' :: ['\n'].intercalate (above ++ piece :: rest) := by
      rw [List.intercalate_cons_of_ne_nil]
      · simp
      · simp
    rw [List.cons_append, hjoin, linesOf_newline, ih, List.flatMap_cons, List.append_assoc]
    rfl

theorem rows_plain {text : List Char} (h : Plain text) : rows text = [text] := by
  unfold rows linesOf
  rw [linesAfter_plain h]
  simp [linesAfter_end]

theorem linesOf_plain {text : List Char} (h : Plain text) (hne : text ≠ []) :
    linesOf text = [text] := by
  have hline := @linesAfter_plain [] text [] h
  unfold linesOf
  simpa [linesAfter_nil, hne] using hline

theorem block_cons (n : Nat) (line : Line) (rest : List Line) :
    block n (line :: rest) =
      if closes n line then ⟨[], some rest⟩ else (block n rest).extend line := rfl

theorem block_append {n : Nat} {content rest : List Line}
    (h : ∀ line ∈ content, closes n line = false) :
    block n (content ++ rest) =
      ⟨content ++ (block n rest).content, (block n rest).below⟩ := by
  induction content with
  | nil => rfl
  | cons line content ih =>
    rw [List.cons_append, block_cons, if_neg, ih fun l hl => h l (List.mem_cons_of_mem line hl)]
    · rfl
    · rw [h line List.mem_cons_self]
      exact Bool.false_ne_true

theorem block_content (n : Nat) (lines : List Line) :
    ∀ line ∈ (block n lines).content, closes n line = false := by
  induction lines with
  | nil =>
    intro line hline
    cases hline
  | cons line lines ih =>
    rw [block_cons]
    split
    · intro other hother
      cases hother
    · rename_i hopen
      intro other hother
      cases hother with
      | head => exact Bool.eq_false_iff.mpr hopen
      | tail _ hother => exact ih other hother

theorem block_eq_iff {n : Nat} {content below : List Line} {closing : Line}
    (hclosing : closes n closing = true) :
    block n (content ++ closing :: below) = ⟨content, some below⟩ ↔
      ∀ line ∈ content, closes n line = false := by
  constructor
  · intro h
    have hcontent := block_content n (content ++ closing :: below)
    rw [h] at hcontent
    exact hcontent
  · intro h
    rw [block_append h, block_cons, if_pos hclosing, List.append_nil]

theorem blockAt_append {above rest : List Line} {opening : Line} {n : Nat}
    (h : opens opening = some n) :
    blockAt (above ++ opening :: rest) above.length = some (block n rest) := by
  unfold blockAt
  rw [List.getElem?_append_right (Nat.le_refl _), Nat.sub_self, List.drop_append,
    List.drop_eq_nil_of_le (Nat.le_succ _)]
  simp [h]

section
variable {above below : List (List Char)} {opening text closing : List Char} {n : Nat}

theorem linesOf_quote (hopening : Plain opening) (hclosing : Plain closing)
    (hne : closing ≠ []) :
    linesOf (['\n'].intercalate (above ++ opening :: text :: closing :: below)) =
      above.flatMap rows ++ opening :: (rows text ++
        closing :: linesOf (['\n'].intercalate below)) := by
  have hpair (first : List Char) {rest : List (List Char)} (hrest : rest ≠ []) :
      linesOf (['\n'].intercalate (first :: rest)) =
        rows first ++ linesOf (['\n'].intercalate rest) := by
    cases rest with
    | nil => exact absurd rfl hrest
    | cons piece rest => simpa using @linesOf_join [first] piece rest
  have hlast : linesOf (['\n'].intercalate (closing :: below)) =
      closing :: linesOf (['\n'].intercalate below) := by
    cases below with
    | nil => simpa [linesOf, linesAfter_nil] using linesOf_plain hclosing hne
    | cons piece below =>
      rw [hpair closing (List.cons_ne_nil piece below), rows_plain hclosing]
      rfl
  rw [linesOf_join, hpair opening (List.cons_ne_nil _ _), hpair text (List.cons_ne_nil _ _), hlast,
    rows_plain hopening]
  rfl

theorem blockAt_quote (hopening : Plain opening) (hopens : opens opening = some n)
    (hclosing : Plain closing) (hne : closing ≠ []) :
    blockAt (linesOf (['\n'].intercalate (above ++ opening :: text :: closing :: below)))
        (above.flatMap rows).length =
      some (block n (rows text ++ closing :: linesOf (['\n'].intercalate below))) := by
  rw [linesOf_quote hopening hclosing hne, blockAt_append hopens]

end

end AutoPR.Markdown
