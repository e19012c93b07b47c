import Mathlib.Data.List.DropRight
import Mathlib.Data.List.Infix

/-! The preview of a comment: the markdown that the policy writes, as the dashboard shows it to the
reviewer. -/
namespace AutoPR.Frontend

abbrev Line := List Char

def whiteSpace (c : Char) : Bool :=
  (9 ≤ c.toNat && c.toNat ≤ 13) || (0x2000 ≤ c.toNat && c.toNat ≤ 0x200A) ||
    [0x20, 0xA0, 0x1680, 0x2028, 0x2029, 0x202F, 0x205F, 0x3000, 0xFEFF].contains c.toNat

def trimEnd (line : Line) : Line := line.rdropWhile whiteSpace

def trim (line : Line) : Line := (trimEnd line).dropWhile whiteSpace

/-- The nodes that `renderInline` pushes. -/
inductive Inline where
  | text (shown : Line)
  | strong (shown : Line)
  | code (shown : Line)
deriving DecidableEq

def Inline.shown : Inline → Line
  | .text shown | .strong shown | .code shown => shown

/-- The text that a node was made of. -/
def Inline.source : Inline → Line
  | .text shown => shown
  | .strong shown => ['*', '*'] ++ shown ++ ['*', '*']
  | .code shown => '`' :: shown ++ ['`']

/-- The match of `\*\*([^*]+)\*\*` at the beginning of a text. -/
def matchStrong : Line → Option Inline
  | '*' :: '*' :: rest =>
      let inner := rest.takeWhile (· ≠ '*')
      if inner ≠ [] ∧ ['*', '*'] <+: rest.dropWhile (· ≠ '*') then some (.strong inner) else none
  | _ => none

/-- The match of `([^`]+)` between two backticks at the beginning of a text. -/
def matchCode : Line → Option Inline
  | '`' :: rest =>
      let inner := rest.takeWhile (· ≠ '`')
      if inner ≠ [] ∧ ['`'] <+: rest.dropWhile (· ≠ '`') then some (.code inner) else none
  | _ => none

def textNode (plain : Line) : List Inline := if plain = [] then [] else [.text plain]

/-- The scan from `lastIndex` on: what is left of the last match, the text since, and the rest. -/
def scan : Nat → Line → Line → List Inline
  | _, plain, [] => textNode plain
  | matched + 1, plain, _ :: rest => scan matched plain rest
  | 0, plain, c :: rest =>
      match (matchStrong (c :: rest)).or (matchCode (c :: rest)) with
      | some node => textNode plain ++ node :: scan (node.source.length - 1) [] rest
      | none => scan 0 (plain ++ [c]) rest

def renderInline (text : Line) : List Inline := scan 0 [] text

inductive Block where
  | list (items : List (List Inline))
  | para (text : List Inline)
  | code (lang : Line) (lines : List Line)
  | summary (text : Line)
  /-- `h3` or `h4`. -/
  | heading (level : Nat) (text : List Inline)
deriving DecidableEq

inductive Tone where
  | plain
  | added
  | removed
  | hunk
deriving DecidableEq

def tone (lang line : Line) : Tone :=
  if lang ≠ "diff".toList then .plain
  else if ['+'] <+: line then .added
  else if ['-'] <+: line then .removed
  else if ['@', '@'] <+: line then .hunk
  else .plain

def codeBlock (lang : Line) (lines : List Line) : List (Tone × Line) :=
  lines.map fun line => (tone lang line, if line = [] then [' '] else line)

structure Fence where
  lang : Line
  lines : List Line

structure Renderer where
  blocks : List Block := []
  list : Option (List Line) := none
  fence : Option Fence := none
  para : Option Line := none

def Renderer.push (r : Renderer) (block : Block) : Renderer :=
  { r with blocks := r.blocks ++ [block] }

def Renderer.flushList (r : Renderer) : Renderer :=
  match r.list with
  | some items => { r.push (.list (items.map renderInline)) with list := none }
  | none => r

def Renderer.flushPara (r : Renderer) : Renderer :=
  match r.para with
  | some para =>
      if trim para ≠ [] then { r.push (.para (renderInline (trim para))) with para := none }
      else { r with para := none }
  | none => r

def Renderer.flush (r : Renderer) : Renderer := r.flushPara.flushList

/-- `line.trim().startsWith('```')`. -/
def isFence (line : Line) : Bool := "```".toList.isPrefixOf (trim line)

def isDetails (line : Line) : Bool :=
  "<details>".toList.isPrefixOf (trim line) || "</details>".toList.isPrefixOf (trim line)

def isTerminator (c : Char) : Bool := [0x0A, 0x0D, 0x2028, 0x2029].contains c.toNat

/-- The group of `/^<summary>(.*)<\/summary>$/`. -/
def summaryOf (line : Line) : Option Line :=
  let inner := ((trim line).drop 9).take ((trim line).length - 19)
  if trim line = "<summary>".toList ++ inner ++ "</summary>".toList ∧ inner.all (!isTerminator ·)
  then some inner else none

def Renderer.line (r : Renderer) (raw : Line) : Renderer :=
  let line := trimEnd raw
  match r.fence with
  | some fence =>
      if isFence line then { r.push (.code fence.lang fence.lines) with fence := none }
      else { r with fence := some { fence with lines := fence.lines ++ [raw] } }
  | none =>
      if isFence line then
        { r.flush with fence := some { lang := trim ((trim line).drop 3), lines := [] } }
      else if isDetails line then r.flush
      else match summaryOf line with
      | some text => r.flush.push (.summary text)
      | none =>
          if "### ".toList.isPrefixOf line then r.flush.push (.heading 4 (renderInline (line.drop 4)))
          else if "## ".toList.isPrefixOf line then
            r.flush.push (.heading 3 (renderInline (line.drop 3)))
          else if "- ".toList.isPrefixOf line then
            { r.flushPara with list := some ((r.list.getD []) ++ [line.drop 2]) }
          else if trim line = [] then r.flush
          else
            { r.flushList with para := some (match r.para with
              | some para => if para = [] then line else para ++ ' ' :: line
              | none => line) }

def Renderer.finish (r : Renderer) : List Block :=
  let r := r.flush
  match r.fence with
  | some fence => r.blocks ++ [.code fence.lang fence.lines]
  | none => r.blocks

def renderLines (lines : List Line) : List Block :=
  (lines.foldl Renderer.line {}).finish

def renderMarkdown (body : Option String) : List Block :=
  renderLines ((body.getD "").toList.splitOn '\n')

/-- What `CommentPreview` shows: nothing if no body was generated. -/
def commentPreview (body : Option String) : Option (List Block) :=
  if body.getD "" = "" then none else some (renderMarkdown body)

section
variable {line : Line}

theorem trim_trimEnd : trim (trimEnd line) = trim line :=
  congrArg (List.dropWhile whiteSpace) (List.rdropWhile_idempotent _ _)

def ink (text : Line) : Line := text.filter (!whiteSpace ·)

@[simp] theorem ink_nil : ink [] = [] := rfl

@[simp] theorem ink_append (a b : Line) : ink (a ++ b) = ink a ++ ink b := List.filter_append ..

theorem ink_eq_nil : ink line = [] ↔ ∀ c ∈ line, whiteSpace c = true := by
  unfold ink
  rw [List.filter_eq_nil_iff]
  simp

theorem ink_dropWhile : ink (line.dropWhile whiteSpace) = ink line := by
  conv_rhs => rw [← @List.takeWhile_append_dropWhile _ whiteSpace line, ink_append,
    ink_eq_nil.mpr fun c hc => List.mem_takeWhile_imp hc]
  rfl

theorem ink_trimEnd : ink (trimEnd line) = ink line := by
  unfold trimEnd List.rdropWhile
  have hreverse : ∀ l : Line, ink l.reverse = (ink l).reverse := fun l => List.filter_reverse ..
  rw [hreverse, ink_dropWhile, hreverse, List.reverse_reverse]

@[simp] theorem ink_trim : ink (trim line) = ink line := ink_dropWhile.trans ink_trimEnd

end

section
variable {text plain : Line} {node : Inline}

theorem matchStrong_source (h : matchStrong text = some node) :
    node.source ≠ [] ∧ node.source <+: text := by
  unfold matchStrong at h
  split at h
  · rename_i rest
    dsimp only at h
    split at h
    · rename_i hmatch
      cases h
      have hrest := @List.takeWhile_append_dropWhile _ (· ≠ '*') rest
      obtain ⟨tail, htail⟩ := hmatch.2
      rw [← htail] at hrest
      refine ⟨List.cons_ne_nil _ _, tail, ?_⟩
      conv_rhs => rw [← hrest]
      simp [Inline.source]
    · cases h
  · cases h

theorem matchCode_source (h : matchCode text = some node) :
    node.source ≠ [] ∧ node.source <+: text := by
  unfold matchCode at h
  split at h
  · rename_i rest
    dsimp only at h
    split at h
    · rename_i hmatch
      cases h
      have hrest := @List.takeWhile_append_dropWhile _ (· ≠ '`') rest
      obtain ⟨tail, htail⟩ := hmatch.2
      rw [← htail] at hrest
      refine ⟨List.cons_ne_nil _ _, tail, ?_⟩
      conv_rhs => rw [← hrest]
      simp [Inline.source]
    · cases h
  · cases h

theorem matched_source {c : Char} {rest : Line}
    (h : (matchStrong (c :: rest)).or (matchCode (c :: rest)) = some node) :
    node.source ++ rest.drop (node.source.length - 1) = c :: rest := by
  have hsource : node.source ≠ [] ∧ node.source <+: c :: rest := by
    obtain h | ⟨-, h⟩ := Option.or_eq_some_iff.mp h
    · exact matchStrong_source h
    · exact matchCode_source h
  obtain ⟨hne, tail, htail⟩ := hsource
  obtain ⟨first, more, hmore⟩ := List.exists_cons_of_ne_nil hne
  rw [hmore, List.cons_append, List.cons.injEq] at htail
  rw [hmore, ← htail.2, ← htail.1, List.length_cons, Nat.add_sub_cancel, List.drop_left,
    List.cons_append]

theorem source_textNode : (textNode plain).flatMap Inline.source = plain := by
  unfold textNode
  split
  · rename_i h
    rw [h]
    rfl
  · exact List.append_nil plain

theorem source_scan (matched : Nat) (plain text : Line) :
    (scan matched plain text).flatMap Inline.source = plain ++ text.drop matched := by
  induction text generalizing matched plain with
  | nil =>
    unfold scan
    rw [source_textNode, List.drop_nil, List.append_nil]
  | cons c rest ih =>
    cases matched with
    | succ matched => exact ih matched plain
    | zero =>
      unfold scan
      split
      · rename_i node hnode
        rw [List.flatMap_append, List.flatMap_cons, source_textNode, ih, List.nil_append,
          matched_source hnode]
        rfl
      · rw [ih, List.drop_zero, List.drop_zero, List.append_assoc, List.singleton_append]

theorem source_renderInline (text : Line) : (renderInline text).flatMap Inline.source = text :=
  source_scan 0 [] text

end

/-- The text that a block was made of. -/
def Block.source : Block → Line
  | .list items => items.flatten.flatMap Inline.source
  | .para text | .heading _ text => text.flatMap Inline.source
  | .code lang lines => (codeBlock lang lines).flatMap (·.2)
  | .summary text => text

def unmarked (line : Line) : Line :=
  match summaryOf line with
  | some text => text
  | none =>
      if "### ".toList.isPrefixOf line then line.drop 4
      else if "## ".toList.isPrefixOf line then line.drop 3
      else if "- ".toList.isPrefixOf line then line.drop 2
      else line

/-- The texts that are to be shown: of the lines between fences all, and of the others what is left
without their marks. -/
def visible : Bool → List Line → List Line
  | _, [] => []
  | fenced, raw :: rest =>
      if isFence raw then visible (!fenced) rest
      else if fenced then raw :: visible true rest
      else if isDetails raw then visible false rest
      else unmarked (trimEnd raw) :: visible false rest

/-- Whether a fence is open after the lines. -/
def fenced : Bool → List Line → Bool
  | before, [] => before
  | before, raw :: rest => fenced (before != isFence raw) rest

structure Renderer.Sound (r : Renderer) : Prop where
  list : r.para ≠ none → r.list = none
  fence : r.fence ≠ none → r.list = none ∧ r.para = none

def Renderer.text (r : Renderer) : Line :=
  r.blocks.flatMap Block.source ++ (r.list.getD []).flatten ++ r.para.getD [] ++
    (r.fence.elim [] fun fence => fence.lines.flatten)

section
variable {r : Renderer} {raw line : Line} {lines : List Line}

theorem isFence_trimEnd : isFence (trimEnd raw) = isFence raw := by
  unfold isFence
  rw [trim_trimEnd]

theorem isDetails_trimEnd : isDetails (trimEnd raw) = isDetails raw := by
  unfold isDetails
  rw [trim_trimEnd]

theorem ink_codeBlock (lang : Line) (lines : List Line) :
    ink ((codeBlock lang lines).flatMap (·.2)) = ink lines.flatten := by
  induction lines with
  | nil => rfl
  | cons line rest ih =>
    have hline : ink (if line = [] then [' '] else line) = ink line := by
      split
      · rename_i h
        rw [h]
        rfl
      · rfl
    unfold codeBlock at ih ⊢
    rw [List.map_cons, List.flatMap_cons, List.flatten_cons, ink_append, ink_append, ih, hline]

theorem source_items (items : List Line) :
    (Block.list (items.map renderInline)).source = items.flatten := by
  change (items.map renderInline).flatten.flatMap Inline.source = items.flatten
  induction items with
  | nil => rfl
  | cons item rest ih =>
    rw [List.map_cons, List.flatten_cons, List.flatMap_append, source_renderInline, ih,
      List.flatten_cons]

theorem flushPara_keeps (h : r.Sound) :
    r.flushPara.Sound ∧ r.flushPara.para = none ∧ r.flushPara.list = r.list ∧
      r.flushPara.fence = r.fence ∧ ink r.flushPara.text = ink r.text := by
  unfold Renderer.flushPara
  cases hpara : r.para with
  | none => exact ⟨h, hpara, rfl, rfl, rfl⟩
  | some para =>
    have hne : r.para ≠ none := by
      rw [hpara]
      exact Option.some_ne_none _
    have hlist := h.list hne
    have hfence : r.fence = none := by
      by_contra hfence
      exact hne (h.fence hfence).2
    dsimp only
    split
    · refine ⟨⟨fun _ => hlist, fun _ => ⟨hlist, rfl⟩⟩, rfl, rfl, rfl, ?_⟩
      simp [Renderer.text, Renderer.push, hlist, hfence, hpara, Block.source, source_renderInline]
    · rename_i hblank
      refine ⟨⟨fun _ => hlist, fun _ => ⟨hlist, rfl⟩⟩, rfl, rfl, rfl, ?_⟩
      have hink : ink para = [] := by rw [← ink_trim, not_not.mp hblank, ink_nil]
      simp [Renderer.text, hlist, hfence, hpara, hink]

theorem flushList_keeps (h : r.Sound) :
    r.flushList.Sound ∧ r.flushList.list = none ∧ r.flushList.para = r.para ∧
      r.flushList.fence = r.fence ∧ ink r.flushList.text = ink r.text := by
  unfold Renderer.flushList
  cases hlist : r.list with
  | none => exact ⟨h, hlist, rfl, rfl, rfl⟩
  | some items =>
    have hne : r.list ≠ none := by
      rw [hlist]
      exact Option.some_ne_none _
    have hpara : r.para = none := by
      by_contra hpara
      exact hne (h.list hpara)
    have hfence : r.fence = none := by
      by_contra hfence
      exact hne (h.fence hfence).1
    refine ⟨⟨fun _ => rfl, fun _ => ⟨rfl, hpara⟩⟩, rfl, rfl, rfl, ?_⟩
    simp [Renderer.text, Renderer.push, hlist, hpara, hfence, source_items]

theorem ink_finish (h : r.Sound) : ink (r.finish.flatMap Block.source) = ink r.text := by
  obtain ⟨hsound, hpara, hlist, hfence, hink⟩ := flushPara_keeps h
  obtain ⟨-, hlist', hpara', hfence', hink'⟩ := flushList_keeps hsound
  rw [← hink, ← hink']
  unfold Renderer.finish Renderer.flush Renderer.text
  rw [hlist', hpara', hpara]
  cases hlast : r.flushPara.flushList.fence with
  | none => simp [hlast]
  | some fence => simp [hlast, Block.source, ink_codeBlock]

theorem flush_eq (hfence : r.fence = none) : r.flush = { blocks := r.finish } := by
  obtain ⟨blocks, list, fence, para⟩ := r
  cases hfence
  unfold Renderer.finish Renderer.flush
  cases para with
  | none => cases list <;> rfl
  | some para =>
    unfold Renderer.flushPara
    dsimp only
    split <;> cases list <;> rfl

def joined (para : Option Line) (line : Line) : Line :=
  match para with
  | some para => if para = [] then line else para ++ ' ' :: line
  | none => line

theorem ink_joined (para : Option Line) (line : Line) :
    ink (joined para line) = ink (para.getD []) ++ ink line := by
  cases para with
  | none => rfl
  | some para =>
    have hspace : ink (' ' :: line) = ink line := rfl
    unfold joined
    dsimp only
    split
    · rename_i h
      rw [h]
      rfl
    · rw [ink_append, hspace]
      rfl

theorem line_unfenced (hfence : r.fence = none) (hplain : isFence raw = false) :
    (∃ blocks, r.line raw = { blocks := r.finish ++ blocks } ∧
      ink (blocks.flatMap Block.source) = ink (visible false [raw]).flatten) ∨
    (∃ item, r.line raw = { r.flushPara with list := some (r.list.getD [] ++ [item]) } ∧
      visible false [raw] = [item]) ∨
    (r.line raw = { r.flushList with para := some (joined r.para (trimEnd raw)) } ∧
      visible false [raw] = [trimEnd raw]) := by
  unfold Renderer.line visible visible
  rw [hfence]
  dsimp only
  rw [isFence_trimEnd, isDetails_trimEnd, hplain, if_neg Bool.false_ne_true,
    if_neg Bool.false_ne_true, if_neg Bool.false_ne_true, flush_eq hfence]
  split
  · exact .inl ⟨[], by rw [List.append_nil], rfl⟩
  unfold unmarked
  split
  · rename_i text hsummary
    exact .inl ⟨[.summary text], rfl, by simp [Block.source]⟩
  split
  · exact .inl ⟨[.heading 4 (renderInline _)], rfl, by simp [Block.source, source_renderInline]⟩
  split
  · exact .inl ⟨[.heading 3 (renderInline _)], rfl, by simp [Block.source, source_renderInline]⟩
  split
  · exact .inr (.inl ⟨_, rfl, rfl⟩)
  split
  · rename_i hblank
    refine .inl ⟨[], by rw [List.append_nil], ?_⟩
    rw [List.flatten_singleton, ← @ink_trim (trimEnd raw), hblank]
    rfl
  · exact .inr (.inr ⟨rfl, rfl⟩)

theorem line_opens (hfence : r.fence = none) (h : isFence raw = true) :
    r.line raw =
      { blocks := r.finish, fence := some { lang := trim ((trim raw).drop 3), lines := [] } } := by
  unfold Renderer.line
  rw [hfence]
  dsimp only
  rw [isFence_trimEnd, h, if_pos rfl, flush_eq hfence, trim_trimEnd]

theorem line_closes {fence : Fence} (hfence : r.fence = some fence) (h : isFence raw = true) :
    r.line raw = { r.push (.code fence.lang fence.lines) with fence := none } := by
  unfold Renderer.line
  rw [hfence]
  dsimp only
  rw [isFence_trimEnd, h, if_pos rfl]

theorem line_fenced {fence : Fence} (hfence : r.fence = some fence) (h : isFence raw = false) :
    r.line raw = { r with fence := some { fence with lines := fence.lines ++ [raw] } } := by
  unfold Renderer.line
  rw [hfence]
  dsimp only
  rw [isFence_trimEnd, h, if_neg Bool.false_ne_true]

theorem fenced_lines {fence : Fence} (hfence : r.fence = some fence)
    (h : ∀ line ∈ lines, isFence line = false) :
    lines.foldl Renderer.line r = { r with fence := some { fence with lines := fence.lines ++ lines } } := by
  induction lines generalizing r fence with
  | nil =>
    rw [List.foldl_nil, List.append_nil, ← hfence]
  | cons raw rest ih =>
    obtain ⟨hraw, hrest⟩ := List.forall_mem_cons.mp h
    rw [List.foldl_cons, line_fenced hfence hraw, ih rfl hrest]
    dsimp only
    rw [List.append_assoc, List.singleton_append]

theorem Renderer.Sound.blocks (blocks : List Block) (fence : Option Fence) :
    Sound { blocks := blocks, fence := fence } :=
  ⟨fun _ => rfl, fun _ => ⟨rfl, rfl⟩⟩

theorem line_keeps (h : r.Sound) (raw : Line) :
    (r.line raw).Sound ∧ (r.line raw).fence.isSome = (r.fence.isSome != isFence raw) ∧
      ink (r.line raw).text = ink r.text ++ ink (visible r.fence.isSome [raw]).flatten := by
  cases hmark : isFence raw with
  | true =>
    have hvisible : ∀ before, visible before [raw] = [] := by
      intro before
      unfold visible visible
      rw [hmark, if_pos rfl]
    rw [hvisible, List.flatten_nil, ink_nil, List.append_nil]
    cases hfence : r.fence with
    | none =>
      rw [line_opens hfence hmark]
      refine ⟨.blocks _ _, rfl, ?_⟩
      rw [← ink_finish h]
      simp [Renderer.text]
    | some fence =>
      obtain ⟨hlist, hpara⟩ := h.fence (by rw [hfence]; exact Option.some_ne_none _)
      rw [line_closes hfence hmark]
      refine ⟨⟨fun _ => hlist, fun _ => ⟨hlist, hpara⟩⟩, rfl, ?_⟩
      simp [Renderer.text, Renderer.push, hlist, hpara, hfence, Block.source, ink_codeBlock]
  | false =>
    cases hfence : r.fence with
    | some fence =>
      obtain ⟨hlist, hpara⟩ := h.fence (by rw [hfence]; exact Option.some_ne_none _)
      have hvisible : visible true [raw] = [raw] := by
        unfold visible visible
        rw [hmark, if_neg Bool.false_ne_true, if_pos rfl]
      rw [line_fenced hfence hmark, Option.isSome_some, Option.isSome_some, hvisible]
      refine ⟨⟨fun _ => hlist, fun _ => ⟨hlist, hpara⟩⟩, rfl, ?_⟩
      simp [Renderer.text, hlist, hpara, hfence]
    | none =>
      rw [Option.isSome_none]
      obtain ⟨blocks, hline, hink⟩ | ⟨item, hline, hvisible⟩ | ⟨hline, hvisible⟩ :=
        line_unfenced hfence hmark
      · rw [hline]
        refine ⟨.blocks _ _, rfl, ?_⟩
        rw [← hink, ← ink_finish h]
        simp [Renderer.text]
      · obtain ⟨-, hpara, hlist, hfence', hink⟩ := flushPara_keeps h
        rw [hline, hvisible, ← hink]
        refine ⟨⟨fun hne => absurd hpara hne, fun hne => absurd (hfence'.trans hfence) hne⟩, ?_, ?_⟩
        · rw [hfence', hfence]
          rfl
        · simp [Renderer.text, hpara, hlist, hfence', hfence]
      · obtain ⟨-, hlist, hpara, hfence', hink⟩ := flushList_keeps h
        rw [hline, hvisible, ← hink]
        refine ⟨⟨fun _ => hlist, fun hne => absurd (hfence'.trans hfence) hne⟩, ?_, ?_⟩
        · rw [hfence', hfence]
          rfl
        · simp [Renderer.text, hpara, hlist, hfence', hfence, ink_joined]

theorem visible_cons (before : Bool) (raw : Line) (rest : List Line) :
    visible before (raw :: rest) = visible before [raw] ++ visible (before != isFence raw) rest := by
  conv_lhs => unfold visible
  conv_rhs => rw [visible, visible]
  cases hmark : isFence raw with
  | true => cases before <;> rfl
  | false =>
    cases before with
    | true => rfl
    | false =>
      rw [if_neg Bool.false_ne_true, if_neg Bool.false_ne_true, if_neg Bool.false_ne_true,
        if_neg Bool.false_ne_true]
      split <;> rfl

theorem lines_keep (h : r.Sound) (lines : List Line) :
    (lines.foldl Renderer.line r).Sound ∧
      (lines.foldl Renderer.line r).fence.isSome = fenced r.fence.isSome lines ∧
      ink (lines.foldl Renderer.line r).text =
        ink r.text ++ ink (visible r.fence.isSome lines).flatten := by
  induction lines generalizing r with
  | nil => exact ⟨h, rfl, (List.append_nil _).symm⟩
  | cons raw rest ih =>
    obtain ⟨hsound, hfence, hink⟩ := line_keeps h raw
    obtain ⟨hsound', hfence', hink'⟩ := ih hsound
    refine ⟨hsound', ?_, ?_⟩
    · rw [List.foldl_cons, hfence', hfence]
      rfl
    · have hvisible := visible_cons r.fence.isSome raw rest
      rw [List.foldl_cons, hink', hink, hfence, hvisible, List.flatten_append, ink_append,
        List.append_assoc]

end

/-- What is shown of a block. -/
def Block.shown : Block → Line
  | .list items => items.flatten.flatMap Inline.shown
  | .para text | .heading _ text => text.flatMap Inline.shown
  | .code lang lines => (codeBlock lang lines).flatMap (·.2)
  | .summary text => text

/-- The text but for white space and the characters that mark. -/
def letters (text : Line) : Line := (ink text).filter fun c => c ≠ '*' && c ≠ '`'

end AutoPR.Frontend
