import AutoPR.Library.Fence
import AutoPR.Routing.Policy

/-! The texts that a comment fences as code: tests, a patch, the output of the sandbox. The
renderers write fences of a fixed length around texts that a model or a check has written. -/
namespace AutoPR.Routing
open Python Markdown

/-- A text in a comment, between the lines above its block and the lines below. -/
structure Quote where
  above : List String
  /-- What the opening fence says of the text. -/
  info : String
  text : String
  below : List String

def Quote.comment (q : Quote) : String :=
  "\n".intercalate (q.above ++ ["```" ++ q.info, q.text, "```"] ++ q.below)

def Quote.document (q : Quote) : List Line := linesOf q.comment.toList

/-- The number of lines above the opening fence. -/
def Quote.place (q : Quote) : Nat := (q.above.flatMap fun piece => rows piece.toList).length

/-- The block that the renderer opens for the text has all of its lines, and is closed by the
renderer's closing line: below it stands only what the renderer has written there. -/
def Quote.Contained (q : Quote) : Prop :=
  blockAt q.document q.place =
    some ⟨rows q.text.toList, some (linesOf ("\n".intercalate q.below).toList)⟩

/-- No line of the text is three or more backticks, but for blanks. -/
def keepsFence (text : String) : Bool := (rows text.toList).all fun line => !closes 3 line

theorem plain_of_letters {cs : List Char} (h : cs.all (fun c => c ≠ '\n' && c ≠ '\r') = true) :
    Plain cs := by
  intro c hc
  simpa using List.all_eq_true.mp h c hc

section
variable {q : Quote} {info : String} (hinfo : q.info = info) (hplain : Plain ("```" ++ info).toList)
  (hopens : opens ("```" ++ info).toList = some 3)
include hinfo hplain hopens

theorem Quote.blockAt_place :
    blockAt q.document q.place = some (block 3 (rows q.text.toList ++
      "```".toList :: linesOf ("\n".intercalate q.below).toList)) := by
  have hclosing : Plain "```".toList := plain_of_letters (by decide)
  have hblock := @blockAt_quote (q.above.map String.toList) (q.below.map String.toList)
    ("```" ++ info).toList q.text.toList "```".toList 3 hplain hopens hclosing (by decide)
  have hcomment : q.comment.toList = ['\n'].intercalate (q.above.map String.toList ++
      ("```" ++ info).toList :: q.text.toList :: "```".toList :: q.below.map String.toList) := by
    unfold comment
    rw [String.toList_intercalate, hinfo]
    simp
  have hbelow : ("\n".intercalate q.below).toList =
      ['\n'].intercalate (q.below.map String.toList) := String.toList_intercalate
  rw [List.flatMap_map] at hblock
  unfold document place
  rw [hcomment, hbelow]
  exact hblock

theorem Quote.contained_iff : q.Contained ↔ keepsFence q.text = true := by
  unfold Contained keepsFence
  rw [Quote.blockAt_place hinfo hplain hopens, Option.some_inj, block_eq_iff (by decide),
    List.all_eq_true]
  simp only [Bool.not_eq_true']

end

def draftTail (body : String) : List String :=
  (if 4000 < body.length then
    ["", "_(truncated at " ++ toString 4000 ++ " characters to keep the comment readable)_"]
  else []) ++ ["</details>"]

/-- The suggested tests of a review, as long as they may be. -/
def draftQuote (above : List String) (tests : String) : Quote :=
  ⟨above, "python", takeFirst 4000 (strip tests), draftTail (strip tests)⟩

/-- The patch of a proposal. -/
def fixQuote (above : List String) (fix : String) : Quote := ⟨above, "diff", strip fix, []⟩

/-- The end of the sandbox output in an escalation. -/
def outputQuote (above : List String) (out : String) : Quote :=
  ⟨above, "", takeLast 1500 (strip out), ["</details>"]⟩

section
variable {u : Unicode} {state : PRState} {text comment : String}

theorem strip_or_empty : ((PyVal.str text).or (.str "")).strip = .ok (strip text) := by
  by_cases hempty : text = ""
  · rw [hempty]
    rfl
  · unfold PyVal.or PyVal.truthy
    rw [if_pos (decide_eq_true hempty)]
    rfl

theorem renderDraftTests_str (hne : strip text ≠ "") :
    renderDraftTests (.str text) =
      .ok (["", "<details><summary>🧪 Suggested tests (draft — not executed)</summary>", "",
        "```" ++ "python", takeFirst 4000 (strip text), "```"] ++ draftTail (strip text)) := by
  have hfence : "```" ++ "python" = "```python" := by decide
  unfold renderDraftTests draftTail
  rw [strip_or_empty, hfence, ← List.append_assoc]
  change (if strip text = "" then _ else _) = _
  rw [if_neg hne]
  rfl

theorem review_quote (htests : state.generatedTests = some (.str text)) (hne : strip text ≠ "")
    (h : renderReviewBody u state = .ok comment) :
    ∃ above, comment = (draftQuote above text).comment := by
  unfold renderReviewBody at h
  rw [htests, Option.getD_some] at h
  dsimp only at h
  obtain ⟨summary, -, h⟩ := ok_of_bind h
  obtain ⟨found, -, h⟩ := ok_of_bind h
  rw [renderDraftTests_str hne] at h
  cases h
  refine ⟨["## 🤖 AutoPR review", "", "**Risk:** `" ++ (state.riskScore.getD (.str "medium")).toStr u
    ++ "`", "", summary] ++ found ++
    ["", "<details><summary>🧪 Suggested tests (draft — not executed)</summary>", ""], ?_⟩
  unfold draftQuote Quote.comment
  simp

theorem fix_quote (hfix : state.proposedFix = some (.str text))
    (h : renderFixBody u state = .ok comment) :
    ∃ above, comment = (fixQuote above text).comment := by
  have hfence : "```" ++ "diff" = "```diff" := by decide
  unfold renderFixBody at h
  rw [hfix, Option.getD_some, strip_or_empty] at h
  dsimp only at h
  obtain ⟨diagnosis, -, h⟩ := ok_of_bind h
  rw [← Except.ok.inj h]
  refine ⟨[
    "## 🤖 AutoPR proposed fix (sandbox-verified)",
    "",
    "**Failure type:** `" ++ (state.failureType.getD (.str "unknown")).toStr u ++ "`",
    "",
    "**Diagnosis:** " ++ diagnosis,
    "",
    "This patch was applied to a snapshot of the repo and the matching " ++
      "check passed inside an isolated sandbox. A maintainer must approve " ++
      "before it is applied to the real branch.",
    ""], ?_⟩
  unfold fixQuote Quote.comment
  rw [hfence]
  rfl

theorem escalation_quote (hout : state.verificationOutput = some (.str text))
    (hne : strip text ≠ "") (h : renderEscalationBody u state = .ok comment) :
    ∃ above, comment = (outputQuote above text).comment := by
  unfold renderEscalationBody at h
  rw [hout, Option.getD_some, strip_or_empty] at h
  dsimp only at h
  obtain ⟨diagnosis, -, h⟩ := ok_of_bind h
  change (.ok ("\n".intercalate (_ ++ if strip text = "" then [] else _)) : Py String) = _ at h
  rw [if_neg hne] at h
  rw [← Except.ok.inj h]
  refine ⟨[
    "## 🤖 AutoPR could not auto-fix this — human needed",
    "",
    "**Failure type:** `" ++ (state.failureType.getD (.str "unknown")).toStr u ++ "`",
    "",
    "**Diagnosis:** " ++ diagnosis,
    "",
    "**Why not auto-fixed:** `" ++
      ((state.verificationReason.getD (.str "")).or (.str "n/a")).toStr u ++ "`",
    "",
    "<details><summary>Sandbox output</summary>",
    ""], ?_⟩
  rfl

/-- A text stays in the block that its renderer opens exactly when none of its lines, once the text
is stripped and cut, closes a fence of three backticks. -/
theorem fence_contains_iff (u : Unicode) (state : PRState) (text comment : String) :
    (state.generatedTests = some (.str text) → strip text ≠ "" →
      renderReviewBody u state = .ok comment →
      ∃ above, comment = (draftQuote above text).comment ∧
        ((draftQuote above text).Contained ↔ keepsFence (takeFirst 4000 (strip text)) = true)) ∧
    (state.proposedFix = some (.str text) → renderFixBody u state = .ok comment →
      ∃ above, comment = (fixQuote above text).comment ∧
        ((fixQuote above text).Contained ↔ keepsFence (strip text) = true)) ∧
    (state.verificationOutput = some (.str text) → strip text ≠ "" →
      renderEscalationBody u state = .ok comment →
      ∃ above, comment = (outputQuote above text).comment ∧
        ((outputQuote above text).Contained ↔
          keepsFence (takeLast 1500 (strip text)) = true)) := by
  refine ⟨fun htests hne h => ?_, fun hfix h => ?_, fun hout hne h => ?_⟩
  · obtain ⟨above, hcomment⟩ := review_quote htests hne h
    have hplain : Plain ("```" ++ "python").toList := plain_of_letters (by decide)
    have hopens : opens ("```" ++ "python").toList = some 3 := by decide
    exact ⟨above, hcomment, Quote.contained_iff rfl hplain hopens⟩
  · obtain ⟨above, hcomment⟩ := fix_quote hfix h
    have hplain : Plain ("```" ++ "diff").toList := plain_of_letters (by decide)
    have hopens : opens ("```" ++ "diff").toList = some 3 := by decide
    exact ⟨above, hcomment, Quote.contained_iff rfl hplain hopens⟩
  · obtain ⟨above, hcomment⟩ := escalation_quote hout hne h
    have hplain : Plain ("```" ++ "").toList := plain_of_letters (by decide)
    have hopens : opens ("```" ++ "").toList = some 3 := by decide
    exact ⟨above, hcomment, Quote.contained_iff rfl hplain hopens⟩

end

/-- A state whose three texts are one. -/
def sameText (text : String) : PRState :=
  { generatedTests := some (.str text), proposedFix := some (.str text),
    verificationOutput := some (.str text) }

theorem fence_contains_iff_assert :
    ∃ review fix escalation,
      renderReviewBody .ascii (sameText "assert f() == 1") = .ok review ∧
      renderFixBody .ascii (sameText "assert f() == 1") = .ok fix ∧
      renderEscalationBody .ascii (sameText "assert f() == 1") = .ok escalation ∧
      (∃ above, review = (draftQuote above "assert f() == 1").comment ∧
        ((draftQuote above "assert f() == 1").Contained ↔
          keepsFence (takeFirst 4000 (strip "assert f() == 1")) = true)) ∧
      (∃ above, fix = (fixQuote above "assert f() == 1").comment ∧
        ((fixQuote above "assert f() == 1").Contained ↔
          keepsFence (strip "assert f() == 1") = true)) ∧
      (∃ above, escalation = (outputQuote above "assert f() == 1").comment ∧
        ((outputQuote above "assert f() == 1").Contained ↔
          keepsFence (takeLast 1500 (strip "assert f() == 1")) = true)) := by
  have hne : strip "assert f() == 1" ≠ "" := by decide
  refine ⟨_, _, _, rfl, rfl, rfl, ?_, ?_, ?_⟩
  · exact (fence_contains_iff .ascii (sameText "assert f() == 1") _ _).1 rfl hne rfl
  · exact (fence_contains_iff .ascii (sameText "assert f() == 1") _ _).2.1 rfl rfl
  · exact (fence_contains_iff .ascii (sameText "assert f() == 1") _ _).2.2 rfl hne rfl

/-- A patch whose second line closes the fence, with a picture below it. -/
def smuggled : String := "+x\n```\n<img src=x>"

/-- The block of the patch ends at the patch's own second line; the picture and the closing line of
the renderer stand below it. -/
theorem fence_closed_by_patch :
    ∃ above, renderFixBody .ascii (sameText smuggled) = .ok (fixQuote above smuggled).comment ∧
      ¬ (fixQuote above smuggled).Contained ∧
      blockAt (fixQuote above smuggled).document (fixQuote above smuggled).place =
        some ⟨["+x".toList], some ["<img src=x>".toList, "```".toList]⟩ := by
  have hrenders : renderFixBody .ascii (sameText smuggled) = .ok _ := rfl
  have hplain : Plain ("```" ++ "diff").toList := plain_of_letters (by decide)
  obtain ⟨above, hcomment⟩ := @fix_quote .ascii (sameText smuggled) smuggled _ rfl hrenders
  have hblock := @Quote.blockAt_place (fixQuote above smuggled) "diff" rfl hplain (by decide)
  have hleaves : keepsFence (strip smuggled) = false := by decide
  have hends : block 3 (rows (strip smuggled).toList ++
      "```".toList :: linesOf ("\n".intercalate []).toList) =
      ⟨["+x".toList], some ["<img src=x>".toList, "```".toList]⟩ := by decide
  refine ⟨above, hcomment ▸ hrenders, ?_, hblock.trans (congrArg some hends)⟩
  rw [@Quote.contained_iff (fixQuote above smuggled) "diff" rfl hplain (by decide)]
  exact ne_true_of_eq_false hleaves

end AutoPR.Routing
