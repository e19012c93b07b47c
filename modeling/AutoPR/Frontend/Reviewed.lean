import AutoPR.Library.Joined
import AutoPR.Library.Returning
import AutoPR.Frontend.Preview
import AutoPR.Pipeline.Patch
import AutoPR.Routing.Fencing

/-! What a reviewer is shown of the bodies that the policy renders. -/
namespace AutoPR.Frontend
open Python Routing Pipeline

section
variable {r : Renderer} {raw : Line} {above lines : List Line}

/-- The same renderer with blocks above its own. -/
def Renderer.under (r : Renderer) (blocks : List Block) : Renderer :=
  { r with blocks := blocks ++ r.blocks }

theorem push_under (blocks : List Block) (block : Block) :
    (r.under blocks).push block = (r.push block).under blocks := by
  simp [Renderer.under, Renderer.push]

theorem flushPara_under (blocks : List Block) :
    (r.under blocks).flushPara = r.flushPara.under blocks := by
  obtain ⟨bs, list, fence, para⟩ := r
  cases para with
  | none => rfl
  | some para =>
    unfold Renderer.flushPara Renderer.under Renderer.push
    dsimp only
    split <;> simp

theorem flushList_under (blocks : List Block) :
    (r.under blocks).flushList = r.flushList.under blocks := by
  obtain ⟨bs, list, fence, para⟩ := r
  cases list with
  | none => rfl
  | some items => simp [Renderer.flushList, Renderer.under, Renderer.push]

theorem flush_under (blocks : List Block) : (r.under blocks).flush = r.flush.under blocks := by
  unfold Renderer.flush
  rw [flushPara_under, flushList_under]

theorem line_under (blocks : List Block) :
    (r.under blocks).line raw = (r.line raw).under blocks := by
  unfold Renderer.line
  have hfence : (r.under blocks).fence = r.fence := rfl
  rw [hfence]
  dsimp only
  cases r.fence with
  | some fence =>
    dsimp only
    split
    · rw [push_under]
      rfl
    · rfl
  | none =>
    dsimp only
    cases summaryOf (trimEnd raw) with
    | some text =>
      dsimp only
      split_ifs <;> rw [flush_under] <;> first | rfl | rw [push_under]
    | none =>
      dsimp only
      split_ifs
      · rw [flush_under]
        rfl
      · exact flush_under blocks
      · rw [flush_under, push_under]
      · rw [flush_under, push_under]
      · rw [flushPara_under]
        rfl
      · exact flush_under blocks
      · rw [flushList_under]
        rfl

theorem lines_under (blocks : List Block) (lines : List Line) :
    lines.foldl Renderer.line (r.under blocks) = (lines.foldl Renderer.line r).under blocks := by
  induction lines generalizing r with
  | nil => rfl
  | cons raw rest ih => rw [List.foldl_cons, List.foldl_cons, line_under, ih]

theorem finish_under (blocks : List Block) :
    (r.under blocks).finish = blocks ++ r.finish := by
  unfold Renderer.finish
  rw [flush_under]
  have hfence : (r.flush.under blocks).fence = r.flush.fence := rfl
  dsimp only
  rw [hfence]
  cases r.flush.fence with
  | none => rfl
  | some fence => simp [Renderer.under]

theorem finish_lines (blocks : List Block) (lines : List Line) :
    (lines.foldl Renderer.line { blocks := blocks }).finish = blocks ++ renderLines lines := by
  have hunder : ({ blocks := blocks } : Renderer) = Renderer.under {} blocks := by
    simp [Renderer.under]
  rw [hunder, lines_under, finish_under]
  rfl

theorem lines_fence (before : Bool) (above lines : List Line) :
    fenced before (above ++ lines) = fenced (fenced before above) lines := by
  induction above generalizing before with
  | nil => rfl
  | cons raw rest ih => exact ih _

theorem fence_none (h : fenced false lines = false) :
    (lines.foldl Renderer.line {}).fence = none := by
  have hfence := (lines_keep (.blocks [] none) lines).2.1
  exact Option.isSome_eq_false_iff.mp (hfence.trans h) |> Option.isNone_iff_eq_none.mp

theorem line_blank (h : r.fence = none) : r.line [] = { blocks := r.finish } := by
  unfold Renderer.line
  rw [h]
  exact flush_eq h

theorem renderLines_section (h : fenced false above = false) (lines : List Line) :
    renderLines (above ++ [] :: lines) = renderLines above ++ renderLines lines := by
  have hblank : (above.foldl Renderer.line {}).line [] = { blocks := renderLines above } :=
    line_blank (fence_none h)
  conv_lhs => unfold renderLines
  rw [List.foldl_append, List.foldl_cons, hblank, finish_lines]

theorem line_details (h : r.fence = none) (hmark : isFence raw = false)
    (hdetails : isDetails raw = true) : r.line raw = { blocks := r.finish } := by
  unfold Renderer.line
  rw [h]
  dsimp only
  rw [isFence_trimEnd, hmark, isDetails_trimEnd, hdetails, flush_eq h]
  rfl

theorem renderLines_details (h : fenced false above = false) (hmark : isFence raw = false)
    (hdetails : isDetails raw = true) : renderLines (above ++ [raw]) = renderLines above := by
  have hline : (above.foldl Renderer.line {}).line raw = { blocks := renderLines above } :=
    line_details (fence_none h) hmark hdetails
  conv_lhs => unfold renderLines
  rw [List.foldl_append, List.foldl_cons, hline, List.foldl_nil]
  rfl

theorem renderLines_code {opening closing : Line} (hopening : isFence opening = true)
    (hclosing : isFence closing = true) (h : ∀ line ∈ lines, isFence line = false)
    (rest : List Line) :
    renderLines (opening :: (lines ++ closing :: rest)) =
      .code (trim ((trim opening).drop 3)) lines :: renderLines rest := by
  conv_lhs => unfold renderLines
  rw [List.foldl_cons, line_opens rfl hopening, List.foldl_append, List.foldl_cons,
    fenced_lines rfl h, line_closes rfl hclosing]
  exact finish_lines [.code _ _] rest

theorem lines_sound (lines : List Line) : (lines.foldl Renderer.line {}).Sound :=
  (lines_keep (.blocks [] none) lines).1

theorem fenced_plain (before : Bool) (h : ∀ line ∈ lines, isFence line = false) :
    fenced before lines = before := by
  induction lines generalizing before with
  | nil => rfl
  | cons raw rest ih =>
    obtain ⟨hraw, hrest⟩ := List.forall_mem_cons.mp h
    unfold fenced
    rw [hraw, Bool.bne_false, ih before hrest]

def Renderer.open (r : Renderer) : Nat := r.fence.elim 0 fun fence => fence.lines.length

theorem open_fence (h : isFence raw = true) : (r.line raw).open = 0 := by
  unfold Renderer.open
  cases hfence : r.fence with
  | none => rw [line_opens hfence h]; rfl
  | some fence => rw [line_closes hfence h]; rfl

theorem open_line (hsound : r.Sound) (raw : Line) : (r.line raw).open ≤ r.open + 1 := by
  cases hmark : isFence raw with
  | true =>
    rw [open_fence hmark]
    exact Nat.zero_le _
  | false =>
    cases hfence : r.fence with
    | some fence =>
      rw [line_fenced hfence hmark]
      unfold Renderer.open
      rw [hfence]
      simp
    | none =>
      have hnone : (r.line raw).fence = none := by
        have hsome := (line_keeps hsound raw).2.1
        rw [hfence, hmark] at hsome
        exact Option.isNone_iff_eq_none.mp (Option.isSome_eq_false_iff.mp hsome)
      unfold Renderer.open
      rw [hnone]
      exact Nat.zero_le _

theorem open_lines (hsound : r.Sound) (lines : List Line) :
    (lines.foldl Renderer.line r).open ≤ r.open + lines.length := by
  induction lines generalizing r with
  | nil => exact Nat.le_refl _
  | cons raw rest ih =>
    have hrest := ih (line_keeps hsound raw).1
    have hraw := open_line hsound raw
    rw [List.foldl_cons, List.length_cons]
    omega

theorem open_lt (hsound : r.Sound) (hraw : raw ∈ lines) (h : isFence raw = true) :
    (lines.foldl Renderer.line r).open < lines.length := by
  obtain ⟨front, back, rfl⟩ := List.append_of_mem hraw
  have hfront := (lines_keep hsound front).1
  have hback := open_lines (line_keeps hfront raw).1 back
  rw [open_fence h] at hback
  rw [List.foldl_append, List.foldl_cons, List.length_append, List.length_cons]
  omega

theorem finish_fence (hsound : r.Sound) :
    (r.line "```".toList).finish.getLast? =
      some (r.fence.elim (.code [] []) fun fence => .code fence.lang fence.lines) := by
  have hfence : isFence "```".toList = true := by decide
  cases hopen : r.fence with
  | none =>
    have hlang : trim ((trim "```".toList).drop 3) = [] := by decide
    rw [line_opens hopen hfence, hlang]
    exact List.getLast?_concat
  | some fence =>
    obtain ⟨hlist, hpara⟩ := hsound.fence (by rw [hopen]; exact Option.some_ne_none _)
    have hfinish : (r.line "```".toList).finish = r.blocks ++ [.code fence.lang fence.lines] := by
      rw [line_closes hopen hfence]
      simp [Renderer.finish, Renderer.flush, Renderer.flushPara, Renderer.flushList, Renderer.push,
        hlist, hpara]
    rw [hfinish]
    exact List.getLast?_concat

/-- A text between two fences ends the preview as one block of code exactly when no fence is open
above it and no line of it begins one. -/
theorem code_shown_iff {opening : Line} (hopening : isFence opening = true)
    (hlang : trim ((trim opening).drop 3) ≠ []) (above lines : List Line) :
    (renderLines (above ++ opening :: (lines ++ ["```".toList]))).getLast? =
        some (.code (trim ((trim opening).drop 3)) lines) ↔
      fenced false above = false ∧ ∀ line ∈ lines, isFence line = false := by
  have habove := lines_sound above
  have hopened := line_keeps habove opening
  have hread := lines_keep hopened.1 lines
  have hfence : (above.foldl Renderer.line {}).fence.isSome = fenced false above :=
    (lines_keep (.blocks [] none) above).2.1
  unfold renderLines
  rw [List.foldl_append, List.foldl_cons, List.foldl_append, List.foldl_cons, List.foldl_nil,
    finish_fence hread.1, Option.some.injEq]
  constructor
  · intro hlast
    have hplain : ∀ line ∈ lines, isFence line = false := by
      by_contra hmark
      push Not at hmark
      obtain ⟨line, hline, hmark⟩ := hmark
      have hlt := open_lt hopened.1 hline ((Bool.not_eq_false _).mp hmark)
      unfold Renderer.open at hlt
      cases hopen : (lines.foldl Renderer.line ((above.foldl Renderer.line {}).line opening)).fence with
      | none =>
        rw [hopen] at hlast
        exact hlang (Block.code.inj hlast).1.symm
      | some fence =>
        rw [hopen] at hlast hlt
        rw [← (Block.code.inj hlast).2] at hlt
        exact Nat.lt_irrefl _ hlt
    refine ⟨?_, hplain⟩
    have hsome := hread.2.1
    rw [fenced_plain _ hplain, hopened.2.1, hopening, Bool.bne_true, hfence] at hsome
    cases hopen : fenced false above with
    | false => rfl
    | true =>
      rw [hopen] at hsome
      have hnone := Option.isSome_eq_false_iff.mp hsome
      rw [Option.isNone_iff_eq_none.mp hnone] at hlast
      exact absurd (Block.code.inj hlast).1.symm hlang
  · rintro ⟨hclosed, hplain⟩
    rw [line_opens (fence_none hclosed) hopening, fenced_lines rfl hplain]
    rfl

end

def textLines (text : String) : List Line := text.toList.splitOn '\n'

theorem trimEnd_append (front : Line) {c : Char} (hc : whiteSpace c = false) (rest : Line) :
    trimEnd (front ++ c :: rest) = front ++ c :: trimEnd rest := by
  unfold trimEnd List.rdropWhile
  rw [List.reverse_append, List.reverse_cons, List.append_assoc, List.dropWhile_append]
  split
  · rename_i hempty
    rw [List.isEmpty_iff.mp hempty]
    simp [hc]
  · simp

theorem trim_append {front : Line} (hfront : ∀ d ∈ front, whiteSpace d = true) {c : Char}
    (hc : whiteSpace c = false) (rest : Line) : trim (front ++ c :: rest) = c :: trimEnd rest := by
  unfold trim
  rw [trimEnd_append front hc, List.dropWhile_append_of_pos hfront, List.dropWhile_cons_of_neg]
  simp [hc]

/-- A line of words, without marks inside or at its ends. -/
def isProse (line : Line) : Bool :=
  line.all (fun c => c ≠ '\n' && c ≠ '*' && c ≠ '`') &&
    line.head?.any (fun c => !whiteSpace c && c ≠ '#' && c ≠ '-' && c ≠ '<') &&
    line.getLast?.any (!whiteSpace ·)

theorem scan_plain {text : Line} (h : ∀ c ∈ text, c ≠ '*' ∧ c ≠ '`') (plain : Line) :
    scan 0 plain text = textNode (plain ++ text) := by
  induction text generalizing plain with
  | nil => rw [scan, List.append_nil]
  | cons c rest ih =>
    obtain ⟨⟨hstar, htick⟩, hrest⟩ := List.forall_mem_cons.mp h
    have hstrong : matchStrong (c :: rest) = none := by
      unfold matchStrong
      split
      · rename_i heq
        exact absurd (List.cons.inj heq).1 hstar
      · rfl
    have hcode : matchCode (c :: rest) = none := by
      unfold matchCode
      split
      · rename_i heq
        exact absurd (List.cons.inj heq).1 htick
      · rfl
    rw [scan, hstrong, hcode]
    dsimp only [Option.or]
    rw [ih hrest, List.append_assoc, List.singleton_append]

theorem isProse_cons {line : Line} (h : isProse line = true) :
    ∃ c rest, line = c :: rest ∧ whiteSpace c = false ∧ c ≠ '#' ∧ c ≠ '-' ∧ c ≠ '<' ∧
      (∀ d ∈ line, d ≠ '\n' ∧ d ≠ '*' ∧ d ≠ '`') ∧ trimEnd line = line := by
  unfold isProse at h
  cases line with
  | nil => cases h
  | cons c rest =>
    simp only [Bool.and_eq_true, List.all_eq_true, List.head?_cons, Option.any_some,
      decide_eq_true_eq, Bool.not_eq_true', and_assoc] at h
    obtain ⟨hall, hc, hheading, hitem, htag, hlast⟩ := h
    refine ⟨c, rest, rfl, hc, hheading, hitem, htag, hall, ?_⟩
    unfold trimEnd
    rw [List.rdropWhile_eq_self_iff]
    intro hne
    rw [List.getLast?_eq_some_getLast hne, Option.any_some] at hlast
    simpa using hlast

theorem trim_prose {line : Line} (h : isProse line = true) : trim line = line := by
  obtain ⟨c, rest, rfl, hc, -, -, -, -, hend⟩ := isProse_cons h
  unfold trim
  rw [hend, List.dropWhile_cons_of_neg]
  simp [hc]

theorem isFence_prose {line : Line} (h : isProse line = true) : isFence line = false := by
  unfold isFence
  rw [trim_prose h]
  obtain ⟨c, rest, rfl, -, -, -, -, hall, -⟩ := isProse_cons h
  have hne : ('`' == c) = false := beq_false_of_ne (hall c List.mem_cons_self).2.2.symm
  have hticks : "```".toList = ['`', '`', '`'] := by decide
  rw [hticks, List.isPrefixOf_cons_cons, hne, Bool.false_and]

theorem renderInline_prose {line : Line} (h : isProse line = true) :
    renderInline line = [.text line] := by
  obtain ⟨c, rest, rfl, -, -, -, -, hall, -⟩ := isProse_cons h
  unfold renderInline
  rw [scan_plain fun d hd => (hall d hd).2, List.nil_append]
  exact if_neg (List.cons_ne_nil c rest)

theorem renderLines_prose {line : Line} (h : isProse line = true) :
    renderLines [line] = [.para [.text line]] := by
  have hline : ({} : Renderer).line line = { para := some line } := by
    have hmark := isFence_prose h
    have htrim := trim_prose h
    obtain ⟨c, rest, rfl, -, hheading, hitem, htag, -, hend⟩ := isProse_cons h
    have hhead : ∀ d mark, d ≠ c → List.isPrefixOf (d :: mark) (c :: rest) = false := by
      intro d mark hne
      rw [List.isPrefixOf_cons_cons, beq_false_of_ne hne, Bool.false_and]
    have hdetails : isDetails (c :: rest) = false := by
      unfold isDetails
      rw [htrim]
      exact Bool.or_eq_false_iff.mpr ⟨hhead '<' _ htag.symm, hhead '<' _ htag.symm⟩
    have hsummary : summaryOf (c :: rest) = none := by
      unfold summaryOf
      rw [htrim]
      apply if_neg
      rintro ⟨heq, -⟩
      exact htag (List.cons.inj heq).1
    have hthree : "### ".toList.isPrefixOf (c :: rest) = false := hhead '#' _ hheading.symm
    have htwo : "## ".toList.isPrefixOf (c :: rest) = false := hhead '#' _ hheading.symm
    have hone : "- ".toList.isPrefixOf (c :: rest) = false := hhead '-' _ hitem.symm
    unfold Renderer.line
    rw [hend]
    dsimp only
    rw [hmark, hdetails, hsummary]
    dsimp only
    rw [hthree, htwo, hone, htrim]
    rfl
  have hne : line ≠ [] := by
    rintro rfl
    cases h
  have hflush : ({ para := some line } : Renderer).flushPara =
      { blocks := [.para [.text line]] } := by
    unfold Renderer.flushPara
    dsimp only
    rw [trim_prose h, if_pos hne, renderInline_prose h]
    rfl
  unfold renderLines Renderer.finish Renderer.flush
  rw [List.foldl_cons, hline, List.foldl_nil, hflush]
  rfl

theorem textLines_prose {text : String} (h : isProse text.toList = true) :
    textLines text = [text.toList] := by
  obtain ⟨c, rest, -, -, -, -, -, hall, -⟩ := isProse_cons h
  exact List.splitOn_eq_singleton fun hmem => (hall _ hmem).1 rfl

theorem textLines_join {parts : List String} (hne : parts ≠ []) :
    textLines ("\n".intercalate parts) = parts.flatMap textLines := by
  have hsep : "\n".toList = ['\n'] := by decide
  unfold textLines
  rw [String.toList_intercalate, hsep, Joined.splitOn_intercalate (by simpa using hne),
    List.flatMap_map]

theorem textLines_newline (a b : String) : textLines (a ++ "\n" ++ b) = textLines a ++ textLines b := by
  have hsep : "\n".toList = ['\n'] := by decide
  unfold textLines
  rw [String.toList_append, String.toList_append, hsep, List.append_assoc, List.singleton_append,
    List.splitOn_append_cons_self]

theorem textLines_plain {text : String} (h : text.toList.contains '\n' = false) :
    textLines text = [text.toList] :=
  List.splitOn_eq_singleton fun hmem => by simp [hmem] at h

/-- What stands between the heading of a proposal and its explanation. -/
def toldLines (u : Unicode) (state : PRState) (diagnosis : String) : List Line :=
  textLines ("**Failure type:** `" ++ (state.failureType.getD (.str "unknown")).toStr u ++ "`") ++
    [] :: textLines ("**Diagnosis:** " ++ diagnosis)

def fixHeading : Line := "## 🤖 AutoPR proposed fix (sandbox-verified)".toList

def fixExplanation : Line :=
  ("This patch was applied to a snapshot of the repo and the matching " ++
    "check passed inside an isolated sandbox. A maintainer must approve " ++
    "before it is applied to the real branch.").toList

theorem isProse_explanation : isProse fixExplanation = true := by decide +kernel

theorem textLines_fixBody (u : Unicode) (state : PRState) (diagnosis patch : String) :
    textLines (fixBody u state diagnosis patch) =
      (fixHeading :: [] :: (toldLines u state diagnosis ++ [[], fixExplanation, []])) ++
        "```diff".toList :: (textLines patch ++ ["```".toList]) := by
  have hhead : fixHead u state diagnosis ≠ [] := List.cons_ne_nil _ _
  have hheading : textLines "## 🤖 AutoPR proposed fix (sandbox-verified)" = [fixHeading] :=
    textLines_plain (by decide)
  have hexplanation : textLines ("This patch was applied to a snapshot of the repo and the matching " ++
      "check passed inside an isolated sandbox. A maintainer must approve " ++
      "before it is applied to the real branch.") = [fixExplanation] :=
    textLines_prose isProse_explanation
  have hopening : textLines "```diff" = ["```diff".toList] := textLines_plain (by decide)
  have hclosing : textLines "```" = ["```".toList] := textLines_plain (by decide)
  have hempty : textLines "" = [[]] := textLines_plain rfl
  unfold fixBody
  rw [textLines_newline, textLines_newline, textLines_join hhead, hclosing]
  unfold fixHead toldLines
  simp only [List.flatMap_cons, List.flatMap_nil, hheading, hexplanation, hopening, hempty]
  simp

theorem isFence_heading : isFence fixHeading = false := by decide +kernel

theorem renderMarkdown_some (body : String) :
    renderMarkdown (some body) = renderLines (textLines body) := rfl

theorem fenced_plain_cons {before : Bool} {raw : Line} {rest : List Line} (h : isFence raw = false) :
    fenced before (raw :: rest) = fenced before rest := by
  rw [fenced, h, Bool.bne_false]

theorem renderLines_heading : renderLines [fixHeading] =
    [.heading 3 [.text "🤖 AutoPR proposed fix (sandbox-verified)".toList]] := by
  decide +kernel

theorem unindent_eq (n : Nat) (line : Line) :
    ∃ front, line = front ++ Markdown.unindent n line ∧ ∀ c ∈ front, c = ' ' := by
  fun_induction Markdown.unindent n line with
  | case1 n rest ih =>
    obtain ⟨front, hrest, hfront⟩ := ih
    refine ⟨' ' :: front, congrArg (' ' :: ·) hrest, ?_⟩
    exact List.forall_mem_cons.mpr ⟨rfl, hfront⟩
  | case2 n line => exact ⟨[], rfl, fun c hc => absurd hc List.not_mem_nil⟩

theorem ticks_cons {line : Line} (h : 3 ≤ (line.takeWhile (· = '`')).length) :
    ∃ rest, line = '`' :: '`' :: '`' :: rest := by
  have hall : ∀ c ∈ line.takeWhile (· = '`'), c = '`' := fun c hc => by
    simpa using List.mem_takeWhile_imp hc
  have hline := @List.takeWhile_append_dropWhile _ (· = '`') line
  obtain ⟨a, b, c, more, hrun⟩ : ∃ a b c more, line.takeWhile (· = '`') = a :: b :: c :: more := by
    match hrun : line.takeWhile (· = '`'), h with
    | a :: b :: c :: more, _ => exact ⟨a, b, c, more, rfl⟩
  rw [hrun] at hall hline
  obtain ⟨ha, hall⟩ := List.forall_mem_cons.mp hall
  obtain ⟨hb, hall⟩ := List.forall_mem_cons.mp hall
  obtain ⟨hc, -⟩ := List.forall_mem_cons.mp hall
  rw [ha, hb, hc] at hline
  exact ⟨_, hline.symm⟩

theorem isFence_of_closes {line : Line} (h : Markdown.closes 3 line = true) : isFence line = true := by
  unfold Markdown.closes Markdown.ticks at h
  rw [Bool.and_eq_true, decide_eq_true_eq] at h
  obtain ⟨front, hline, hfront⟩ := unindent_eq 3 line
  obtain ⟨rest, hrest⟩ := ticks_cons h.1
  have hspace : ∀ c ∈ front, whiteSpace c = true := by
    intro c hc
    rw [hfront c hc]
    rfl
  have htick : whiteSpace '`' = false := rfl
  unfold isFence
  have hrun : trimEnd ('`' :: '`' :: rest) = '`' :: '`' :: trimEnd rest :=
    trimEnd_append ['`'] htick rest
  rw [hline, hrest, trim_append hspace htick, hrun]
  rfl

theorem rows_join {pieces : List Line} (hne : pieces ≠ [])
    (h : ∀ piece ∈ pieces, Markdown.Plain piece) :
    Markdown.rows (['\n'].intercalate pieces) = pieces := by
  induction pieces with
  | nil => exact absurd rfl hne
  | cons first rest ih =>
    obtain ⟨hfirst, hrest⟩ := List.forall_mem_cons.mp h
    cases rest with
    | nil =>
      rw [List.intercalate_singleton]
      exact Markdown.rows_plain hfirst
    | cons next more =>
      rw [List.intercalate_cons_cons, List.append_assoc, List.singleton_append]
      unfold Markdown.rows at ih ⊢
      rw [List.append_assoc, List.cons_append, Markdown.linesOf_newline,
        ih (List.cons_ne_nil _ _) hrest]
      exact congrArg (· ++ next :: more) (Markdown.rows_plain hfirst)

theorem rows_textLines {text : String} (h : '\r' ∉ text.toList) :
    Markdown.rows text.toList = textLines text := by
  have hplain : ∀ piece ∈ textLines text, Markdown.Plain piece := by
    intro piece hpiece c hc
    obtain ⟨hnewline, hmem⟩ := Joined.mem_splitOn hpiece hc
    refine ⟨hnewline, ?_⟩
    rintro rfl
    exact h hmem
  have hjoin := rows_join (List.splitOn_ne_nil _ _) hplain
  unfold textLines at hjoin ⊢
  rwa [List.intercalate_splitOn] at hjoin

/-- Of a proposed fix a reviewer is shown the heading, what was diagnosed and the explanation, and
below them the patch, line by line and as it is, in one block of code; so long as the diagnosis
leaves no fence open and no line of the patch begins one, and only then does the preview end with
the patch. The comment on GitHub keeps such a patch in its block as well, if it holds no carriage
return. -/
theorem fix_previewed {cfg : Routing.Settings} {state : PRState} {decision : RoutingDecision}
    (hroute : route cfg state = .ok decision) (haction : decision.action = .proposeFix) :
    ∃ diagnosis patch, diagnosisText state = .ok diagnosis ∧ patchText state = .ok patch ∧
      ((renderMarkdown (some decision.body)).getLast? =
          some (.code "diff".toList (textLines patch)) ↔
        fenced false (toldLines cfg.unicode state diagnosis) = false ∧
          ∀ line ∈ textLines patch, isFence line = false) ∧
      (fenced false (toldLines cfg.unicode state diagnosis) = false →
        (∀ line ∈ textLines patch, isFence line = false) →
        renderMarkdown (some decision.body) =
          .heading 3 [.text "🤖 AutoPR proposed fix (sandbox-verified)".toList] ::
            (renderLines (toldLines cfg.unicode state diagnosis) ++
              [.para [.text fixExplanation], .code "diff".toList (textLines patch)]) ∧
        ('\r' ∉ patch.toList → keepsFence patch = true)) := by
  obtain ⟨-, diagnosis, patch, hdiagnosis, hpatch, hbody⟩ := route_proposeFix hroute haction
  refine ⟨diagnosis, patch, hdiagnosis, hpatch, ?_, fun htold hplain => ⟨?_, fun hreturn => ?_⟩⟩
  · have hmark : isFence "```diff".toList = true := by decide
    have hlang : trim ((trim "```diff".toList).drop 3) = "diff".toList := by decide
    have hshown := code_shown_iff hmark (by rw [hlang]; decide)
      (fixHeading :: [] :: (toldLines cfg.unicode state diagnosis ++ [[], fixExplanation, []]))
      (textLines patch)
    rw [hlang] at hshown
    have hclosed : fenced false
        (fixHeading :: [] :: (toldLines cfg.unicode state diagnosis ++ [[], fixExplanation, []])) =
          fenced false (toldLines cfg.unicode state diagnosis) := by
      rw [fenced_plain_cons isFence_heading, fenced_plain_cons rfl, lines_fence]
      exact fenced_plain _ (List.forall_mem_cons.mpr
        ⟨rfl, List.forall_mem_cons.mpr ⟨isFence_prose isProse_explanation, List.forall_mem_singleton.mpr rfl⟩⟩)
    rw [hclosed] at hshown
    rw [hbody, renderMarkdown_some, textLines_fixBody]
    exact hshown
  · have hsections : (fixHeading :: [] :: (toldLines cfg.unicode state diagnosis ++
        [[], fixExplanation, []])) ++ "```diff".toList :: (textLines patch ++ ["```".toList]) =
        [fixHeading] ++ [] :: (toldLines cfg.unicode state diagnosis ++ [] :: ([fixExplanation] ++
          [] :: ("```diff".toList :: (textLines patch ++ "```".toList :: [])))) := by simp
    have hheading : fenced false [fixHeading] = false := fenced_plain_cons isFence_heading
    have hexplanation : fenced false [fixExplanation] = false := fenced_plain_cons (isFence_prose isProse_explanation)
    have hlang : trim ((trim "```diff".toList).drop 3) = "diff".toList := by decide
    rw [hbody, renderMarkdown_some, textLines_fixBody, hsections, renderLines_section hheading,
      renderLines_section htold, renderLines_section hexplanation,
      renderLines_code (by decide) (by decide) hplain, renderLines_heading,
      renderLines_prose isProse_explanation,
      hlang]
    rfl
  · unfold keepsFence
    rw [rows_textLines hreturn, List.all_eq_true]
    intro line hline
    cases hcloses : Markdown.closes 3 line with
    | false => rfl
    | true =>
      have hmark := hplain line hline
      rw [isFence_of_closes hcloses] at hmark
      cases hmark

/-- A fix that has passed its check. -/
def lintFix : PRState :=
  { failureType := some (.str "lint"), fixVerified := some (.bool true),
    failureDiagnosis := some (.str "Unused import."), proposedFix := some (.str "-import os") }

theorem fix_previewed_lint : ∃ decision, route .small lintFix = .ok decision ∧
    (renderMarkdown (some decision.body)).getLast? =
      some (.code "diff".toList ["-import os".toList]) := by
  obtain ⟨decision, hdecision⟩ : ∃ decision, route .small lintFix = .ok decision := ⟨_, rfl⟩
  have haction : decision.action = .proposeFix := by
    cases hdecision
    rfl
  obtain ⟨diagnosis, patch, hdiagnosis, hpatch, hshown, -⟩ := fix_previewed hdecision haction
  have hpatch' : patchText lintFix = .ok "-import os" := by decide
  have hdiagnosis' : diagnosisText lintFix = .ok "Unused import." := by decide
  cases hpatch.symm.trans hpatch'
  cases hdiagnosis.symm.trans hdiagnosis'
  exact ⟨decision, hdecision, hshown.mpr (by decide)⟩

def bulletItem (bullet : String) : List Inline := renderInline (trimEnd (bullet.toList.drop 2))

def findingBlocks (bullets : List String) : List Block :=
  if bullets = [] then [.para [.text "_No blocking issues found._".toList]]
  else [.heading 4 [.text "Findings".toList], .list (bullets.map bulletItem)]

/-- The tests are shown without the line that says that they have not been executed. -/
def draftBlocks (draft : String) : List Block :=
  if draft = "" then []
  else .code "python".toList (textLines (takeFirst 4000 draft)) ::
    if 4000 < draft.length then
      [.para [.text "_(truncated at 4000 characters to keep the comment readable)_".toList]]
    else []

section
variable {u : Unicode} {r : Renderer} {raw : Line}

theorem line_item {c : Char} {rest : Line} (hfence : r.fence = none) (hc : whiteSpace c = false) :
    r.line ('-' :: ' ' :: c :: rest) =
      { r.flushPara with list := some (r.list.getD [] ++ [c :: trimEnd rest]) } := by
  have htrimEnd : trimEnd ('-' :: ' ' :: c :: rest) = '-' :: ' ' :: c :: trimEnd rest :=
    trimEnd_append ['-', ' '] hc rest
  have htrim : trim ('-' :: ' ' :: c :: trimEnd rest) = '-' :: trimEnd (' ' :: c :: trimEnd rest) :=
    trim_append (fun d hd => absurd hd List.not_mem_nil) rfl _
  have hmark : isFence ('-' :: ' ' :: c :: trimEnd rest) = false := by
    unfold isFence
    rw [htrim]
    rfl
  have hdetails : isDetails ('-' :: ' ' :: c :: trimEnd rest) = false := by
    unfold isDetails
    rw [htrim]
    rfl
  have hsummary : summaryOf ('-' :: ' ' :: c :: trimEnd rest) = none := by
    unfold summaryOf
    rw [htrim]
    apply if_neg
    rintro ⟨heq, -⟩
    exact absurd (List.cons.inj heq).1 (by decide)
  unfold Renderer.line
  rw [hfence, htrimEnd]
  dsimp only
  rw [hmark, hdetails, hsummary]
  rfl

def IsBullet (bullet : String) : Prop :=
  ∃ c rest, bullet.toList = '-' :: ' ' :: c :: rest ∧ whiteSpace c = false

theorem isBullet_renderFinding {finding : PyVal} {bullet : String}
    (h : renderFinding u finding = .ok bullet) : IsBullet bullet := by
  unfold renderFinding at h
  obtain ⟨severity, -, h⟩ := ok_of_bind h
  obtain ⟨file, -, h⟩ := ok_of_bind h
  obtain ⟨number, -, h⟩ := ok_of_bind h
  obtain ⟨value, -, h⟩ := ok_of_bind h
  obtain ⟨message, -, h⟩ := ok_of_bind h
  have hicon : ∃ c, (findingIcon (u.lower (severity.toStr u))).toList = [c] ∧ whiteSpace c = false := by
    unfold findingIcon
    split
    · exact ⟨'🔴', by decide, by decide⟩
    split
    · exact ⟨'🟡', by decide, by decide⟩
    · exact ⟨'🔵', by decide, by decide⟩
  obtain ⟨c, hicon, hc⟩ := hicon
  have hmark : "- ".toList = ['-', ' '] := by decide
  rw [← Except.ok.inj h]
  refine ⟨c, (" `" ++ file.toStr u ++ ":" ++ number.toStr u ++ "` — " ++ message).toList, ?_, hc⟩
  simp only [String.toList_append, hicon, hmark, List.append_assoc, List.cons_append, List.nil_append]

theorem lines_items {bullets : List String} (h : ∀ bullet ∈ bullets, IsBullet bullet)
    (blocks : List Block) (items : List Line) :
    (bullets.map String.toList).foldl Renderer.line { blocks := blocks, list := some items } =
      { blocks := blocks,
        list := some (items ++ bullets.map fun bullet => trimEnd (bullet.toList.drop 2)) } := by
  induction bullets generalizing items with
  | nil => simp
  | cons bullet rest ih =>
    obtain ⟨⟨c, text, hbullet, hc⟩, hrest⟩ := List.forall_mem_cons.mp h
    have hitem : trimEnd (bullet.toList.drop 2) = c :: trimEnd text := by
      rw [hbullet]
      exact trimEnd_append [] hc text
    rw [List.map_cons, List.foldl_cons, hbullet, line_item rfl hc]
    change (rest.map String.toList).foldl Renderer.line
      { blocks := blocks, list := some (items ++ [c :: trimEnd text]) } = _
    rw [ih hrest, List.map_cons, hitem, List.append_assoc, List.singleton_append]

theorem renderLines_findings {bullets : List String} (h : ∀ bullet ∈ bullets, IsBullet bullet)
    (hne : bullets ≠ []) :
    renderLines ("### Findings".toList :: bullets.map String.toList) =
      [.heading 4 [.text "Findings".toList], .list (bullets.map bulletItem)] := by
  obtain ⟨first, rest, rfl⟩ := List.exists_cons_of_ne_nil hne
  obtain ⟨⟨c, text, hbullet, hc⟩, hrest⟩ := List.forall_mem_cons.mp h
  have hitem : trimEnd (first.toList.drop 2) = c :: trimEnd text := by
    rw [hbullet]
    exact trimEnd_append [] hc text
  have hheading : ({} : Renderer).line "### Findings".toList =
      { blocks := [.heading 4 [.text "Findings".toList]] } := by
    rfl
  unfold renderLines
  rw [List.foldl_cons, hheading, List.map_cons, List.foldl_cons, hbullet, line_item rfl hc]
  change ((rest.map String.toList).foldl Renderer.line
    { blocks := [.heading 4 [.text "Findings".toList]], list := some [c :: trimEnd text] }).finish = _
  rw [lines_items hrest]
  unfold bulletItem
  have hitems : (rest.map fun bullet => renderInline (trimEnd (bullet.toList.drop 2))) =
      (rest.map fun bullet => trimEnd (bullet.toList.drop 2)).map renderInline := by
    rw [List.map_map]
    rfl
  rw [List.map_cons, hitem, hitems]
  rfl

theorem isFence_bullet {bullet : String} (h : IsBullet bullet) : isFence bullet.toList = false := by
  obtain ⟨c, rest, hbullet, -⟩ := h
  have htrim : trim ('-' :: ' ' :: c :: rest) = '-' :: trimEnd (' ' :: c :: rest) :=
    trim_append (fun d hd => absurd hd List.not_mem_nil) rfl _
  unfold isFence
  rw [hbullet, htrim]
  rfl

def draftLabel : Line :=
  "<details><summary>🧪 Suggested tests (draft — not executed)</summary>".toList

def truncationNote : Line :=
  "_(truncated at 4000 characters to keep the comment readable)_".toList

theorem isProse_truncationNote : isProse truncationNote = true := by decide +kernel

def draftLines (draft : String) : List Line :=
  if draft = "" then []
  else [] :: ([draftLabel] ++ [] :: ("```python".toList ::
    (textLines (takeFirst 4000 draft) ++ "```".toList ::
      ((if 4000 < draft.length then [[], truncationNote] else []) ++ ["</details>".toList]))))

theorem renderDraftTests_lines {v : PyVal} {tests : List String}
    (h : renderDraftTests v = .ok tests) :
    ∃ draft, (v.or (.str "")).strip = .ok draft ∧ tests.flatMap textLines = draftLines draft := by
  unfold renderDraftTests at h
  obtain ⟨draft, hdraft, h⟩ := ok_of_bind h
  refine ⟨draft, hdraft, ?_⟩
  unfold draftLines
  have hempty : textLines "" = [[]] := textLines_plain rfl
  have hlabel : textLines "<details><summary>🧪 Suggested tests (draft — not executed)</summary>" =
      [draftLabel] := textLines_plain (by decide +kernel)
  have hopening : textLines "```python" = ["```python".toList] := textLines_plain (by decide)
  have hclosing : textLines "```" = ["```".toList] := textLines_plain (by decide)
  have hend : textLines "</details>" = ["</details>".toList] := textLines_plain (by decide)
  have hnumber : "_(truncated at " ++ toString 4000 ++ " characters to keep the comment readable)_" =
      "_(truncated at 4000 characters to keep the comment readable)_" := by decide +kernel
  have hnote : textLines ("_(truncated at " ++ toString 4000 ++
      " characters to keep the comment readable)_") = [truncationNote] := by
    rw [hnumber]
    exact textLines_prose isProse_truncationNote
  split at h
  · rename_i hnone
    rw [← Except.ok.inj h, if_pos hnone]
    rfl
  · rename_i hsome
    rw [← Except.ok.inj h, if_neg hsome]
    by_cases hlong : 4000 < draft.length
    · rw [if_pos hlong, if_pos hlong]
      simp only [List.flatMap_append, List.flatMap_cons, List.flatMap_nil, hempty, hlabel, hopening,
        hclosing, hnote, hend]
      simp
    · rw [if_neg hlong, if_neg hlong]
      simp only [List.flatMap_append, List.flatMap_cons, List.flatMap_nil, hempty, hlabel, hopening,
        hclosing, hend]
      simp

theorem renderLines_draft {draft : String} (hne : draft ≠ "")
    (h : ∀ line ∈ textLines (takeFirst 4000 draft), isFence line = false) :
    renderLines ([draftLabel] ++ [] :: ("```python".toList ::
      (textLines (takeFirst 4000 draft) ++ "```".toList ::
        ((if 4000 < draft.length then [[], truncationNote] else []) ++ ["</details>".toList])))) =
      draftBlocks draft := by
  have hlabel : fenced false [draftLabel] = false := by decide +kernel
  have hhidden : renderLines [draftLabel] = [] := by decide +kernel
  have hlang : trim ((trim "```python".toList).drop 3) = "python".toList := by decide
  have hnote : fenced false ([] :: [truncationNote]) = false :=
    (fenced_plain_cons rfl).trans (fenced_plain_cons (isFence_prose isProse_truncationNote))
  have hsection : renderLines ([] :: [truncationNote]) = renderLines [truncationNote] :=
    @renderLines_section [] rfl [truncationNote]
  unfold draftBlocks
  rw [renderLines_section hlabel, hhidden, List.nil_append,
    renderLines_code (by decide) (by decide) h, hlang, if_neg hne]
  split
  · rw [renderLines_details hnote (by decide) (by decide), hsection,
      renderLines_prose isProse_truncationNote]
    rfl
  · rw [renderLines_details rfl (by decide) (by decide)]
    rfl

theorem iter_ne_nil {v : PyVal} {items : List PyVal} (h : v.truthy = true) (hitems : v.iter = .ok items) :
    items ≠ [] := by
  cases v with
  | none | bool | int | float => cases hitems
  | str s =>
    cases hitems
    unfold PyVal.truthy at h
    simpa using h
  | list xs | dict xs =>
    cases hitems
    unfold PyVal.truthy at h
    simpa using h

/-- The bullets of the findings, one for each and in their order. -/
def FindingBullets (u : Unicode) (findings : PyVal) (bullets : List String) : Prop :=
  if findings.truthy then
    ∃ items, findings.iter = .ok items ∧ items ≠ [] ∧
      List.Forall₂ (fun finding bullet => renderFinding u finding = .ok bullet) items bullets
  else bullets = []

theorem renderFindings_lines {findings : PyVal} {found : List String}
    (h : renderFindings u findings = .ok found) :
    ∃ bullets, FindingBullets u findings bullets ∧
      found = "" :: if bullets = [] then ["_No blocking issues found._"] else "### Findings" :: bullets := by
  unfold renderFindings at h
  unfold FindingBullets
  split at h
  · rename_i htruthy
    obtain ⟨items, hitems, h⟩ := ok_of_bind h
    obtain ⟨bullets, hmap, h⟩ := ok_of_bind h
    cases h
    have hne := iter_ne_nil htruthy hitems
    have hforall := mapM_ok hmap
    refine ⟨bullets, ?_, ?_⟩
    · rw [if_pos htruthy]
      exact ⟨items, hitems, hne, hforall⟩
    · rw [if_neg]
      · rfl
      · rintro rfl
        exact hne (List.forall₂_nil_right_iff.mp hforall)
  · rename_i hfalsy
    cases h
    refine ⟨[], ?_, rfl⟩
    rw [if_neg hfalsy]

theorem FindingBullets.isBullet {findings : PyVal} {bullets : List String}
    (h : FindingBullets u findings bullets) : ∀ bullet ∈ bullets, IsBullet bullet := by
  unfold FindingBullets at h
  split at h
  · obtain ⟨items, -, -, hforall⟩ := h
    induction hforall with
    | nil => exact fun bullet hbullet => absurd hbullet List.not_mem_nil
    | cons hfinding _ ih =>
      exact List.forall_mem_cons.mpr ⟨isBullet_renderFinding hfinding, ih⟩
  · rw [h]
    exact fun bullet hbullet => absurd hbullet List.not_mem_nil

def findingLines (bullets : List String) : List Line :=
  if bullets = [] then ["_No blocking issues found._".toList]
  else "### Findings".toList :: bullets.map String.toList

theorem renderLines_findingLines {bullets : List String} (h : ∀ bullet ∈ bullets, IsBullet bullet) :
    renderLines (findingLines bullets) = findingBlocks bullets := by
  unfold findingLines findingBlocks
  split
  · decide
  · rename_i hne
    exact renderLines_findings h hne

theorem fenced_findingLines {bullets : List String} (h : ∀ bullet ∈ bullets, IsBullet bullet) :
    fenced false (findingLines bullets) = false := by
  apply fenced_plain
  unfold findingLines
  split
  · exact List.forall_mem_singleton.mpr (by decide)
  · refine List.forall_mem_cons.mpr ⟨by decide, ?_⟩
    exact List.forall_mem_map.mpr fun bullet hbullet => isFence_bullet (h bullet hbullet)

end

def reviewHeading : Line := "## 🤖 AutoPR review".toList

/-- What stands between the heading of a review and its findings. -/
def reviewedLines (u : Unicode) (state : PRState) (summary : String) : List Line :=
  textLines ("**Risk:** `" ++ (state.riskScore.getD (.str "medium")).toStr u ++ "`") ++
    [] :: textLines summary

theorem flatMap_textLines {texts : List String}
    (h : ∀ text ∈ texts, text.toList.contains '\n' = false) :
    texts.flatMap textLines = texts.map String.toList := by
  induction texts with
  | nil => rfl
  | cons text rest ih =>
    obtain ⟨htext, hrest⟩ := List.forall_mem_cons.mp h
    rw [List.flatMap_cons, textLines_plain htext, ih hrest, List.map_cons, List.singleton_append]

theorem renderReviewBody_lines {u : Unicode} {state : PRState} {body : String}
    (h : renderReviewBody u state = .ok body) :
    ∃ summary bullets draft,
      ((state.summary.getD (.str "")).or (.str "(no summary produced)")).strip = .ok summary ∧
      FindingBullets u ((state.reviewFindings.getD (.list [])).or (.list [])) bullets ∧
      ((state.generatedTests.getD (.str "")).or (.str "")).strip = .ok draft ∧
      ((∀ bullet ∈ bullets, bullet.toList.contains '\n' = false) →
        textLines body = [reviewHeading] ++ [] :: (reviewedLines u state summary ++
          [] :: (findingLines bullets ++ draftLines draft))) := by
  unfold renderReviewBody at h
  dsimp only at h
  obtain ⟨summary, hsummary, h⟩ := ok_of_bind h
  obtain ⟨found, hfound, h⟩ := ok_of_bind h
  obtain ⟨tests, htests, h⟩ := ok_of_bind h
  obtain ⟨bullets, hbullets, hfound⟩ := renderFindings_lines hfound
  obtain ⟨draft, hdraft, htests⟩ := renderDraftTests_lines htests
  refine ⟨summary, bullets, draft, hsummary, hbullets, hdraft, fun hplain => ?_⟩
  have hempty : textLines "" = [[]] := textLines_plain rfl
  have hheading : textLines "## 🤖 AutoPR review" = [reviewHeading] := textLines_plain (by decide)
  have hnone : textLines "_No blocking issues found._" = ["_No blocking issues found._".toList] :=
    textLines_plain (by decide)
  have htitle : textLines "### Findings" = ["### Findings".toList] := textLines_plain (by decide)
  have hlines : found.flatMap textLines = [] :: findingLines bullets := by
    rw [hfound, List.flatMap_cons, hempty]
    unfold findingLines
    split
    · rw [List.flatMap_cons, hnone]
      rfl
    · rw [List.flatMap_cons, htitle, flatMap_textLines hplain]
      rfl
  rw [← Except.ok.inj h, textLines_join (by simp), List.flatMap_append, List.flatMap_append, hlines,
    htests]
  unfold reviewedLines
  simp only [List.flatMap_cons, List.flatMap_nil, hempty, hheading]
  simp

theorem route_commentReview {cfg : Routing.Settings} {state : PRState} {decision : RoutingDecision}
    (hroute : route cfg state = .ok decision) (haction : decision.action = .commentReview) :
    renderReviewBody cfg.unicode state = .ok decision.body := by
  unfold route at hroute
  split at hroute
  · unfold routeCi at hroute
    dsimp only at hroute
    split at hroute
    · obtain ⟨body, -, hroute⟩ := ok_of_bind hroute
      cases hroute
      cases haction
    split at hroute
    · cases hroute
      cases haction
    · obtain ⟨body, -, hroute⟩ := ok_of_bind hroute
      cases hroute
      cases haction
  · unfold routePr at hroute
    obtain ⟨body, hbody, hroute⟩ := ok_of_bind hroute
    cases hroute
    exact hbody

/-- Of a review whose summary leaves no fence open, whose findings take a line each and whose
suggested tests begin no fence, a reviewer is shown the heading, the risk and the summary, one list
with an item for each finding in their order, and the tests in one block of code; but not that the
tests are a draft that has not been executed. -/
theorem review_previewed {cfg : Routing.Settings} {state : PRState} {decision : RoutingDecision}
    (hroute : route cfg state = .ok decision) (haction : decision.action = .commentReview) :
    ∃ summary bullets draft,
      ((state.summary.getD (.str "")).or (.str "(no summary produced)")).strip = .ok summary ∧
      FindingBullets cfg.unicode ((state.reviewFindings.getD (.list [])).or (.list [])) bullets ∧
      ((state.generatedTests.getD (.str "")).or (.str "")).strip = .ok draft ∧
      (fenced false (reviewedLines cfg.unicode state summary) = false →
        (∀ bullet ∈ bullets, bullet.toList.contains '\n' = false) →
        (∀ line ∈ textLines (takeFirst 4000 draft), isFence line = false) →
        renderMarkdown (some decision.body) =
          .heading 3 [.text "🤖 AutoPR review".toList] ::
            (renderLines (reviewedLines cfg.unicode state summary) ++ findingBlocks bullets ++
              draftBlocks draft)) := by
  obtain ⟨summary, bullets, draft, hsummary, hbullets, hdraft, hlines⟩ :=
    renderReviewBody_lines (route_commentReview hroute haction)
  refine ⟨summary, bullets, draft, hsummary, hbullets, hdraft, fun htold hplain htests => ?_⟩
  have hheading : fenced false [reviewHeading] = false := by decide
  have hshown : renderLines [reviewHeading] = [.heading 3 [.text "🤖 AutoPR review".toList]] := by
    decide +kernel
  have hfound := hbullets.isBullet
  rw [renderMarkdown_some, hlines hplain, renderLines_section hheading, renderLines_section htold,
    hshown]
  by_cases hnone : draft = ""
  · have hnothing : draftLines draft = [] := if_pos hnone
    have hblocks : draftBlocks draft = [] := if_pos hnone
    rw [hnothing, hblocks, List.append_nil, renderLines_findingLines hfound, List.append_nil]
    rfl
  · have hdraftLines : draftLines draft = _ := if_neg hnone
    rw [hdraftLines, renderLines_section (fenced_findingLines hfound),
      renderLines_findingLines hfound, renderLines_draft hnone htests, List.append_assoc]
    rfl

/-- A review with one finding. -/
def leakReview : PRState :=
  { summary := some (.str "One leak."),
    reviewFindings := some (.list [.dict [("severity", .str "error"), ("file", .str "a.py"),
      ("line", .int 3), ("message", .str "never closed")]]) }

theorem review_previewed_leak : ∃ decision, route .small leakReview = .ok decision ∧
    (renderMarkdown (some decision.body)).getLast? = some (.list [[.text "🔴 ".toList,
      .code "a.py:3".toList, .text " — never closed".toList]]) := by
  obtain ⟨decision, hdecision⟩ : ∃ decision, route .small leakReview = .ok decision := ⟨_, rfl⟩
  have haction : decision.action = .commentReview := by
    cases hdecision
    rfl
  obtain ⟨summary, bullets, draft, hsummary, hbullets, hdraft, hshown⟩ :=
    review_previewed hdecision haction
  have hsummary' : summary = "One leak." := (Except.ok.inj hsummary).symm
  have hdraft' : draft = "" := (Except.ok.inj hdraft).symm
  have hbullets' : bullets = ["- 🔴 `a.py:3` — never closed"] := by
    unfold FindingBullets at hbullets
    rw [if_pos (by decide)] at hbullets
    obtain ⟨items, hitems, -, hforall⟩ := hbullets
    cases hitems
    cases hforall with
    | cons hfinding hrest =>
      cases hrest
      rw [← Except.ok.inj hfinding]
      decide
  rw [hsummary', hbullets', hdraft'] at hshown
  refine ⟨decision, hdecision, ?_⟩
  rw [hshown (by decide) (by decide) (by decide)]
  decide +kernel

end AutoPR.Frontend
