import Mathlib.Tactic.Ring
import Mathlib.Tactic.NormNum
import AutoPR.Commands.Matching

/-! The grammar of a decision command, against the parser. The number is looked for with
an unanchored expression of at most twelve digits, so the parser keeps to the grammar on
the lines whose digits, if any, are one short number directly after the verb. -/
namespace AutoPR.Commands
open Python Pattern

/-- The prefix and the verb of a decision, in any case, and what stands after them. -/
structure Addressed (line verb : String) (text : List Char) : Prop where
  verb_mem : verb = "approve" ∨ verb = "reject"
  split : ∃ pre gap word : List Char, line.toList = pre ++ (gap ++ (word ++ text)) ∧
    String.ofList (pre.map Char.toLower) ∈ prefixForms ∧ gap ≠ [] ∧
    (∀ c ∈ gap, isSpace c = true) ∧ word.map Char.toLower = verb.toList

def afterHash : List Char → List Char
  | '#' :: rest => rest
  | cs => cs

def numberRun (u : Unicode) (text : List Char) : List Char :=
  (afterHash (text.dropWhile isSpace)).takeWhile (isDigit u)

def numberAt (u : Unicode) (text : List Char) : Option Nat :=
  if numberRun u text = [] then none else some (decimal u (numberRun u text))

/-- The parser keeps to the grammar: an id is the number of the line, a line without one
carries none, and every line with one is parsed to it. -/
structure Exact (u : Unicode) (body : String) : Prop where
  sound : ∀ verb n, verb = "approve" ∨ verb = "reject" →
    parseCommand u (.str body) = .ok (some ⟨verb, some n⟩) →
    ∃ line text, contentLine body = some line ∧ Addressed line verb text ∧
      numberAt u text = some n
  bare : ∀ line verb text command, contentLine body = some line → Addressed line verb text →
    numberAt u text = none → parseCommand u (.str body) = .ok (some command) →
    command.decisionId = none
  complete : ∀ line verb text n, contentLine body = some line → Addressed line verb text →
    numberAt u text = some n → parseCommand u (.str body) = .ok (some ⟨verb, some n⟩)

/-- What stands after the verb has no digits at all, or starts with at most twelve of them;
digits do not join the verb. -/
def plainId (u : Unicode) (text : List Char) : Bool :=
  if text.head?.any (isWord u) then !text.head?.any (isDigit u)
  else if numberRun u text = [] then !text.any (isDigit u)
  else (numberRun u text).length ≤ 12 || decimal u (numberRun u text) = 0

section
variable {u : Unicode}

theorem contentLine_trimmed {body line : String} (h : contentLine body = some line) :
    Trimmed line.toList := by
  obtain ⟨raw, -, rfl⟩ := List.mem_map.mp (List.mem_of_find?_eq_some h)
  exact strip_trimmed raw

theorem Addressed.unique (hu : Standard u) {line verb verb' : String} {text text' : List Char}
    (h : Addressed line verb text) (h' : Addressed line verb' text') : text = text' := by
  obtain ⟨hverb, pre, gap, found, hline, hpre, hne, hgap, hfound⟩ := h
  obtain ⟨hverb', pre', gap', found', hline', hpre', hne', hgap', hfound'⟩ := h'
  have hmatch : ∀ pre gap rest : List Char, line.toList = pre ++ (gap ++ rest) →
      String.ofList (pre.map Char.toLower) ∈ prefixForms → gap ≠ [] →
      (∀ c ∈ gap, isSpace c = true) →
      (prefixRegex u).matchPrefix line.toList = some (pre, gap ++ rest) := by
    intro pre gap rest hline hpre hne hgap
    rw [hline]
    apply prefix_match hu hpre
    cases gap with
    | nil => exact absurd rfl hne
    | cons space gap => exact ⟨space, rfl, hgap space List.mem_cons_self⟩
  have hsame := (hmatch _ _ _ hline hpre hne hgap).symm.trans
    (hmatch _ _ _ hline' hpre' hne' hgap')
  have htail : gap ++ (found ++ text) = gap' ++ (found' ++ text') :=
    congrArg Prod.snd (Option.some.inj hsame)
  have hdrop : ∀ verb : String, ∀ gap found text : List Char,
      verb = "approve" ∨ verb = "reject" → found.map Char.toLower = verb.toList →
      (∀ c ∈ gap, isSpace c = true) →
      (gap ++ (found ++ text)).dropWhile isSpace = found ++ text := by
    intro verb gap found text hverb hfound hgap
    obtain ⟨⟨c, rest, rfl, hc⟩, -⟩ := verb_letters hu hverb hfound
    rw [List.dropWhile_append_of_pos hgap]
    apply List.dropWhile_cons_of_neg
    intro hspace
    rw [toLower_space hspace] at hc
    obtain rfl | rfl := hc <;> cases hspace
  have hrest : found ++ text = found' ++ text' := by
    rw [← hdrop verb gap found text hverb hfound hgap, htail,
      hdrop verb' gap' found' text' hverb' hfound' hgap']
  have hlower := congrArg (fun cs : List Char => (cs.map Char.toLower).head?) hrest
  simp only [List.map_append, hfound, hfound'] at hlower
  have hlength : found.length = found'.length := by
    have hcount : ∀ cs : List Char, ∀ verb : String, cs.map Char.toLower = verb.toList →
        cs.length = verb.toList.length := by
      intro cs verb hcs
      rw [← hcs, List.length_map]
    rw [hcount _ _ hfound, hcount _ _ hfound']
    obtain rfl | rfl := hverb <;> obtain rfl | rfl := hverb' <;> first | rfl | cases hlower
  exact (List.append_inj hrest hlength).2

theorem parse_addressed (hu : Standard u) {line verb : String} {text : List Char}
    (htrim : Trimmed line.toList) (h : Addressed line verb text) :
    parseLine u line =
      if text.head?.any (isWord u) then none else some ⟨verb, foundId u text⟩ := by
  obtain ⟨hverb, pre, gap, found, hline, hpre, hne, hgap, hfound⟩ := h
  obtain ⟨⟨c, rest, hcons, hc⟩, hlast⟩ := verb_letters hu hverb hfound
  have hletter : isSpace c = false := by
    cases hspace : isSpace c with
    | false => rfl
    | true =>
      rw [toLower_space hspace] at hc
      obtain rfl | rfl := hc <;> cases hspace
  have hrest : Trimmed (found ++ text) := by
    constructor
    · intro d hd
      rw [hcons] at hd
      cases hd
      exact hletter
    · intro d hd
      apply htrim.back d
      rw [hline, List.getLast?_append, List.getLast?_append, hd]
      rfl
  have hmatched : (prefixRegex u).matchPrefix line.toList = some (pre, gap ++ (found ++ text)) := by
    rw [hline]
    apply prefix_match hu hpre
    cases gap with
    | nil => exact absurd rfl hne
    | cons space gap => exact ⟨space, rfl, hgap space List.mem_cons_self⟩
  have hstrip := strip_leading hgap hrest
  have hnonempty : String.ofList (found ++ text) ≠ "" := by
    rw [hcons]
    simp
  have hlower : u.lower (String.ofList found) = verb := by
    have hascii : ∀ l ∈ verb.toList, l.toNat < 128 := by
      obtain rfl | rfl := hverb <;> decide
    rw [lower_match hascii (caseless hfound), hfound, String.ofList_toList]
  have hdecision : (decide (verb = "status") || decide (verb = "help")) = false := by
    obtain rfl | rfl := hverb <;> rfl
  have hrun := @verb_run u hu verb found text hverb hfound
  unfold parseLine
  rw [hmatched]
  dsimp only
  rw [hstrip, if_neg hnonempty, String.toList_ofList]
  unfold Regex.matchPrefix
  rw [hrun]
  cases text.head?.any (isWord u) with
  | true => rfl
  | false =>
    simp only [Bool.false_eq_true, if_false, List.head?_cons, Option.map_some, List.reverse_reverse]
    rw [hlower, hdecision]
    exact parse_id hu verb text

theorem strip_rest {line taken tail : List Char} (hline : line = taken ++ tail)
    (htrim : Trimmed line) :
    (strip (String.ofList tail)).toList = tail.dropWhile isSpace := by
  rw [toList_strip, String.toList_ofList]
  rw [List.rdropWhile, dropWhile_of_front, List.reverse_reverse]
  intro c hc
  rw [List.head?_reverse] at hc
  apply htrim.back c
  rw [hline, List.getLast?_append]
  have hlast : tail.getLast? = some c := by
    rw [← List.takeWhile_append_dropWhile (p := isSpace) (l := tail), List.getLast?_append, hc]
    rfl
  rw [hlast]
  rfl

theorem addressed_of_parse (hu : Standard u) {line verb : String} {d : Option Nat}
    (htrim : Trimmed line.toList) (hverb : verb = "approve" ∨ verb = "reject")
    (h : parseLine u line = some ⟨verb, d⟩) : ∃ text, Addressed line verb text := by
  unfold parseLine at h
  split at h
  · cases h
  · rename_i taken tail hmatched
    obtain ⟨hline, hform, hboundary⟩ := prefix_of_match hu hmatched
    dsimp only at h
    split at h
    · obtain rfl := congrArg Command.verb (Option.some.inj h)
      exact absurd hverb (by decide)
    · split at h
      · cases h
      · rename_i group text hmatch
        have hlower : u.lower (String.ofList group) = verb := by
          split at h
          · exact congrArg Command.verb (Option.some.inj h)
          · split at h <;> exact congrArg Command.verb (Option.some.inj h)
        obtain ⟨hsplit, hword⟩ := verb_of_match hverb hmatch hlower
        have hstrip := strip_rest hline htrim
        have htail : tail = tail.takeWhile isSpace ++ (group ++ text) := by
          rw [← hsplit, hstrip]
          exact (List.takeWhile_append_dropWhile).symm
        obtain ⟨⟨c, rest, hcons, hc⟩, -⟩ := verb_letters hu hverb hword
        refine ⟨text, hverb, taken, tail.takeWhile isSpace, group, ?_, hform, ?_, ?_, hword⟩
        · rw [hline, ← htail]
        · intro hnil
          rw [hnil, hcons] at htail
          rw [htail] at hboundary
          have hletter : isWord u c = true := by
            apply isWord_letter hu
            obtain hc | hc := hc <;> rw [hc] <;> rfl
          cases hboundary.symm.trans hletter
        · intro d hd
          exact List.mem_takeWhile_imp hd

theorem space_not_digit (hu : Standard u) {c : Char} (h : isSpace c = true) :
    isDigit u c = false := by
  cases hc : isDigit u c with
  | false => rfl
  | true => cases (hu.space c h).symm.trans (hu.digit_alnum c hc)

theorem foundRun_nil {text : List Char} :
    foundRun u text = [] ↔ text.any (isDigit u) = false := by
  induction text with
  | nil => exact ⟨fun _ => rfl, fun _ => rfl⟩
  | cons c rest ih =>
    rw [List.any_cons]
    cases hc : isDigit u c with
    | true =>
      rw [foundRun_digit hc, List.takeWhile_cons_of_pos hc, List.take_succ_cons]
      simp
    | false =>
      rw [foundRun_other hc, ih, Bool.false_or]

theorem foundRun_skip {front text : List Char} (h : ∀ c ∈ front, isDigit u c = false) :
    foundRun u (front ++ text) = foundRun u text := by
  induction front with
  | nil => rfl
  | cons c rest ih =>
    obtain ⟨hc, hrest⟩ := List.forall_mem_cons.mp h
    rw [List.cons_append, foundRun_other hc]
    exact ih hrest

theorem foundRun_number (hu : Standard u) {text : List Char} (h : numberRun u text ≠ []) :
    foundRun u text = (numberRun u text).take 12 := by
  have hdigits : ∀ cs : List Char, cs.takeWhile (isDigit u) ≠ [] →
      foundRun u cs = (cs.takeWhile (isDigit u)).take 12 := by
    intro cs hcs
    cases cs with
    | nil => exact absurd rfl hcs
    | cons c rest =>
      cases hc : isDigit u c with
      | true => exact foundRun_digit hc
      | false =>
        rw [List.takeWhile_cons_of_neg (by simp [hc])] at hcs
        exact absurd rfl hcs
  have hspaces : foundRun u text = foundRun u (text.dropWhile isSpace) := by
    conv_lhs => rw [← List.takeWhile_append_dropWhile (p := isSpace) (l := text)]
    apply foundRun_skip
    intro c hc
    exact space_not_digit hu (List.mem_takeWhile_imp hc)
  have hhash : foundRun u (text.dropWhile isSpace) =
      foundRun u (afterHash (text.dropWhile isSpace)) := by
    unfold afterHash
    split
    · rename_i rest heq
      rw [heq]
      apply foundRun_other
      unfold isDigit
      rw [hu.digit '#' (by decide)]
      rfl
    · rfl
  rw [hspaces, hhash]
  exact hdigits _ h

theorem decimal_append (u : Unicode) (front back : List Char) :
    decimal u (front ++ back) = decimal u front * 10 ^ back.length + decimal u back := by
  induction back using List.reverseRecOn with
  | nil => simp [decimal]
  | append_singleton back c ih =>
    have hstep : ∀ cs : List Char,
        decimal u (cs ++ [c]) = 10 * decimal u cs + (u.digit c).getD 0 := by
      intro cs
      simp [decimal]
    rw [← List.append_assoc, hstep, hstep, ih, List.length_append, List.length_singleton, pow_succ]
    ring

theorem decimal_take (u : Unicode) (run : List Char) :
    decimal u (run.take 12) = decimal u run ↔ run.length ≤ 12 ∨ decimal u run = 0 := by
  by_cases hshort : run.length ≤ 12
  · rw [List.take_of_length_le hshort]
    simp [hshort]
  · have hsplit := decimal_append u (run.take 12) (run.drop 12)
    rw [List.take_append_drop] at hsplit
    have hlength : (run.drop 12).length ≠ 0 := by
      rw [List.length_drop]
      omega
    have hpow : 2 ≤ 10 ^ (run.drop 12).length := by
      calc 2 ≤ 10 ^ 1 := by norm_num
        _ ≤ 10 ^ (run.drop 12).length :=
          Nat.pow_le_pow_right (by norm_num) (Nat.one_le_iff_ne_zero.mpr hlength)
    have hdouble : 2 * decimal u (run.take 12) ≤
        decimal u (run.take 12) * 10 ^ (run.drop 12).length := by
      rw [Nat.mul_comm 2]
      exact Nat.mul_le_mul_left _ hpow
    constructor
    · intro heq
      right
      omega
    · intro hzero
      have hzero := hzero.resolve_left hshort
      omega

theorem numberRun_word (hu : Standard u) {text : List Char}
    (h : text.head?.any (isWord u) = true) : numberRun u text = text.takeWhile (isDigit u) := by
  cases text with
  | nil => cases h
  | cons c rest =>
    have hc : isWord u c = true := h
    have hspace : isSpace c = false := by
      cases hspace : isSpace c with
      | false => rfl
      | true => cases (isWord_space hu hspace).symm.trans hc
    have hhash : c ≠ '#' := by
      rintro rfl
      unfold isWord at hc
      rw [hu.alnum '#' (by decide)] at hc
      cases hc
    unfold numberRun
    rw [List.dropWhile_cons_of_neg (by simp [hspace])]
    congr 1
    unfold afterHash
    split
    · rename_i heq
      exact absurd (List.cons.inj heq).1 hhash
    · rfl

theorem plainId_iff (hu : Standard u) (text : List Char) :
    plainId u text = true ↔
      (if text.head?.any (isWord u) then none else foundId u text) = numberAt u text := by
  unfold plainId
  cases hword : text.head?.any (isWord u) with
  | true =>
    unfold numberAt
    rw [numberRun_word hu hword]
    cases text with
    | nil => cases hword
    | cons c rest => cases hc : isDigit u c <;> simp [hc]
  | false =>
    unfold foundId numberAt
    simp only [Bool.false_eq_true, if_false]
    by_cases hrun : numberRun u text = []
    · rw [if_pos hrun, if_pos hrun]
      by_cases hfound : foundRun u text = []
      · rw [if_pos hfound, foundRun_nil.mp hfound]
        simp
      · have hany : text.any (isDigit u) = true := by
          rw [← Bool.not_eq_false]
          exact fun hnone => hfound (foundRun_nil.mpr hnone)
        rw [if_neg hfound, hany]
        simp
    · have htake := foundRun_number hu hrun
      have hfound : foundRun u text ≠ [] := by
        rw [htake]
        cases hcons : numberRun u text with
        | nil => exact absurd hcons hrun
        | cons c rest => simp
      rw [if_neg hrun, if_neg hrun, if_neg hfound, Option.some.injEq, htake, decimal_take]
      simp

theorem parseCommand_str (body : String) :
    parseCommand u (.str body) = .ok ((contentLine body).bind (parseLine u)) := by
  unfold parseCommand PyVal.or PyVal.truthy
  by_cases hbody : body = ""
  · rw [hbody]
    rfl
  · simp [hbody, pure, Except.pure]

/-- The parser keeps to the grammar of decision commands exactly if the first line with
content, if it addresses a decision, has after the verb no digits, or starts there with a
number of at most twelve of them. -/
theorem exact_iff (hu : Standard u) (body : String) :
    Exact u body ↔ ∀ line verb text, contentLine body = some line → Addressed line verb text →
      plainId u text = true := by
  have hparse : ∀ line verb text, contentLine body = some line → Addressed line verb text →
      parseCommand u (.str body) =
        .ok (if text.head?.any (isWord u) then none else some ⟨verb, foundId u text⟩) := by
    intro line verb text hline haddressed
    rw [parseCommand_str, hline, Option.bind_some,
      parse_addressed hu (contentLine_trimmed hline) haddressed]
  constructor
  · intro h line verb text hline haddressed
    rw [plainId_iff hu]
    have hline' := hparse line verb text hline haddressed
    cases hnumber : numberAt u text with
    | some n =>
      have hfound := h.complete line verb text n hline haddressed hnumber
      rw [hline'] at hfound
      split
      · rename_i hword
        rw [if_pos hword] at hfound
        cases hfound
      · rename_i hword
        rw [if_neg hword] at hfound
        exact congrArg Command.decisionId (Option.some.inj (Except.ok.inj hfound))
    | none =>
      split
      · rfl
      · rename_i hword
        rw [if_neg hword] at hline'
        exact h.bare line verb text _ hline haddressed hnumber hline'
  · intro hplain
    have hagree : ∀ line verb text, contentLine body = some line → Addressed line verb text →
        (if text.head?.any (isWord u) then none else foundId u text) = numberAt u text :=
      fun line verb text hline haddressed =>
        (plainId_iff hu text).mp (hplain line verb text hline haddressed)
    constructor
    · intro verb n hverb hcommand
      rw [parseCommand_str] at hcommand
      obtain ⟨line, hline, hparsed⟩ := Option.bind_eq_some_iff.mp (Except.ok.inj hcommand)
      obtain ⟨text, haddressed⟩ :=
        addressed_of_parse hu (contentLine_trimmed hline) hverb hparsed
      refine ⟨line, text, hline, haddressed, ?_⟩
      rw [← hagree line verb text hline haddressed]
      rw [parse_addressed hu (contentLine_trimmed hline) haddressed] at hparsed
      split at hparsed
      · cases hparsed
      · rename_i hword
        rw [if_neg hword]
        exact congrArg Command.decisionId (Option.some.inj hparsed)
    · intro line verb text command hline haddressed hnumber hcommand
      rw [hparse line verb text hline haddressed] at hcommand
      split at hcommand
      · cases hcommand
      · rename_i hword
        have hfound := hagree line verb text hline haddressed
        rw [if_neg hword, hnumber] at hfound
        cases hcommand
        exact hfound
    · intro line verb text n hline haddressed hnumber
      have hfound := hagree line verb text hline haddressed
      rw [hnumber] at hfound
      rw [hparse line verb text hline haddressed]
      split
      · rename_i hword
        rw [if_pos hword] at hfound
        cases hfound
      · rename_i hword
        rw [if_neg hword] at hfound
        rw [hfound]

end

theorem notice_addressed : Addressed "/autopr approve 42" "approve" " 42".toList where
  verb_mem := .inl rfl
  split := ⟨"/autopr".toList, " ".toList, "approve".toList, by decide, by decide, by decide,
    by decide, by decide⟩

/-- A command as the notice gives it. -/
theorem exact_iff_notice : Exact .ascii "/autopr approve 42" := by
  apply (exact_iff ascii_standard _).mpr
  intro line verb text hline haddressed
  have hcontent : contentLine "/autopr approve 42" = some "/autopr approve 42" := by decide
  obtain rfl := Option.some.inj (hcontent.symm.trans hline)
  obtain rfl := haddressed.unique ascii_standard notice_addressed
  decide

theorem prose_addressed :
    Addressed "/autopr approve the fix for 2 of 3" "approve" " the fix for 2 of 3".toList where
  verb_mem := .inl rfl
  split := ⟨"/autopr".toList, " ".toList, "approve".toList, by decide, by decide, by decide,
    by decide, by decide⟩

/-- A number of the prose is taken for the id. -/
theorem prose_number_taken :
    parseCommand .ascii (.str "/autopr approve the fix for 2 of 3") =
        .ok (some ⟨"approve", some 2⟩) ∧
      numberAt .ascii " the fix for 2 of 3".toList = none ∧
      ¬ Exact .ascii "/autopr approve the fix for 2 of 3" := by
  have hparsed : parseCommand .ascii (.str "/autopr approve the fix for 2 of 3") =
      .ok (some ⟨"approve", some 2⟩) := by decide
  have hnumber : numberAt .ascii " the fix for 2 of 3".toList = none := by decide
  refine ⟨hparsed, hnumber, ?_⟩
  intro h
  cases h.bare _ _ _ _ (by decide) prose_addressed hnumber hparsed

example : parseCommand .ascii (.str "/autopr reject 1234567890123") =
    .ok (some ⟨"reject", some 123456789012⟩) := by decide

end AutoPR.Commands
