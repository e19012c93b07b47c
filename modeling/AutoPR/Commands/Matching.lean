import AutoPR.Commands.Parse
import AutoPR.Library.Strip

/-! What the three expressions of the parser match. The prefix and the verb stand at the
beginning; the number is looked for anywhere, and at most twelve of its digits are taken. -/
namespace AutoPR.Commands
open Python Pattern

/-- What holds of the Unicode data: it agrees with ASCII, white space belongs to no word
and a decimal digit does. -/
structure Standard (u : Unicode) : Prop where
  alnum : ∀ c : Char, c.toNat < 128 → u.alnum c = c.isAlphanum
  digit : ∀ c : Char, c.toNat < 128 → u.digit c = Unicode.ascii.digit c
  space : ∀ c, isSpace c = true → u.alnum c = false
  digit_alnum : ∀ c, (u.digit c).isSome = true → u.alnum c = true

def isDigit (u : Unicode) (c : Char) : Bool := (u.digit c).isSome

def decimal (u : Unicode) (run : List Char) : Nat :=
  run.foldl (fun acc c => 10 * acc + (u.digit c).getD 0) 0

def foundRun (u : Unicode) (text : List Char) : List Char :=
  ((text.dropWhile fun c => !isDigit u c).takeWhile (isDigit u)).take 12

def foundId (u : Unicode) (text : List Char) : Option Nat :=
  if foundRun u text = [] then none else some (decimal u (foundRun u text))

section
variable {u : Unicode}

theorem digitsFrom_eq {acc : Nat} {run : List Char} (hrun : ∀ c ∈ run, isDigit u c = true)
    (hplain : '_' ∉ run) :
    digitsFrom u acc run =
      some (run.foldl (fun acc c => 10 * acc + (u.digit c).getD 0) acc) := by
  induction run generalizing acc with
  | nil => rfl
  | cons c rest ih =>
    obtain ⟨hc, hrest⟩ := List.forall_mem_cons.mp hrun
    rw [List.mem_cons, not_or] at hplain
    obtain ⟨d, hd⟩ := Option.isSome_iff_exists.mp hc
    have hunder : c ≠ '_' := fun heq => hplain.1 heq.symm
    unfold digitsFrom
    split
    · contradiction
    · rename_i heq
      exact absurd (List.cons.inj heq).1 hunder
    · rename_i heq
      obtain ⟨rfl, rfl⟩ := List.cons.inj heq
      rw [hd, Option.bind_some, ih hrest hplain.2, List.foldl_cons, hd]
      rfl

theorem isDigit_ne (hu : Standard u) {c d : Char} (hc : isDigit u c = true)
    (hd : d.toNat < 128) (hdigit : d.isDigit = false) : c ≠ d := by
  rintro rfl
  unfold isDigit at hc
  rw [hu.digit c hd] at hc
  simp [Unicode.ascii, hdigit] at hc

theorem parseNat_run (hu : Standard u) {run : List Char} (hne : run ≠ [])
    (hrun : ∀ c ∈ run, isDigit u c = true) (hlength : run.length ≤ 4300) :
    parseNat u run = some (decimal u run) := by
  have hplain : '_' ∉ run := fun hmem => isDigit_ne hu (hrun _ hmem) (by decide) (by decide) rfl
  cases run with
  | nil => exact absurd rfl hne
  | cons c rest =>
    obtain ⟨hc, hrest⟩ := List.forall_mem_cons.mp hrun
    obtain ⟨d, hd⟩ := Option.isSome_iff_exists.mp hc
    rw [List.mem_cons, not_or] at hplain
    have hshort := (List.length_filter_le (· ≠ '_') (c :: rest)).trans hlength
    unfold parseNat
    dsimp only
    rw [if_pos hshort, hd, Option.bind_some, digitsFrom_eq hrest hplain.2]
    unfold decimal
    rw [List.foldl_cons, hd]
    simp

theorem number_lead (before : Option Char) (taken : List Char) {c : Char} (rest : List Char)
    (hc : isDigit u c = true) :
    ∃ left, (Regex.seq (.char (isDigit u)) (.upTo 11 (.char (isDigit u)))).lead
      ⟨before, taken, c :: rest⟩ =
        some ⟨before, (((c :: rest).takeWhile (isDigit u)).take 12).reverse ++ taken, left⟩ := by
  obtain ⟨left, hleft⟩ := Regex.lead_upTo (isDigit u) 11 before (c :: taken) rest
  refine ⟨left, Regex.lead_seq (Regex.lead_of_run (Regex.run_char rfl hc)) ?_⟩
  rw [hleft, List.takeWhile_cons_of_pos hc, List.take_succ_cons, List.reverse_cons,
    List.append_assoc]
  rfl

theorem number_nil (before : Option Char) (taken : List Char) {text : List Char}
    (h : ∀ c, text.head? = some c → isDigit u c = false) :
    (Regex.seq (.char (isDigit u)) (.upTo 11 (.char (isDigit u)))).run
      ⟨before, taken, text⟩ = [] :=
  Regex.run_seq_nil (Regex.run_char_nil h)

theorem id_lead_digit (hu : Standard u) (before : Option Char) {c : Char} (rest : List Char)
    (hc : isDigit u c = true) :
    ∃ left, (idRegex u).lead ⟨before, [], c :: rest⟩ =
      some ⟨before, (((c :: rest).takeWhile (isDigit u)).take 12).reverse, left⟩ := by
  obtain ⟨left, hleft⟩ := number_lead before [] rest hc
  have hhash : (Regex.char (· = '#')).run ⟨before, [], c :: rest⟩ = [] := by
    apply Regex.run_char_nil
    intro d hd
    cases hd
    exact decide_eq_false (isDigit_ne hu hc (by decide) (by decide))
  rw [List.append_nil] at hleft
  have hskip : (Regex.optional (.char (· = '#'))).lead ⟨before, [], c :: rest⟩ =
      some ⟨before, [], c :: rest⟩ := Regex.lead_right hhash Regex.lead_empty
  exact ⟨left, Regex.lead_seq hskip hleft⟩

theorem id_lead_hash (before : Option Char) {c : Char} (rest : List Char)
    (hc : isDigit u c = true) :
    ∃ left, (idRegex u).lead ⟨before, [], '#' :: c :: rest⟩ =
      some ⟨before, ('#' :: ((c :: rest).takeWhile (isDigit u)).take 12).reverse, left⟩ := by
  obtain ⟨left, hleft⟩ := number_lead before ['#'] rest hc
  have htake : (Regex.optional (.char (· = '#'))).lead ⟨before, [], '#' :: c :: rest⟩ =
      some ⟨before, ['#'], c :: rest⟩ :=
    Regex.lead_left (Regex.lead_of_run (Regex.run_char rfl rfl))
  refine ⟨left, Regex.lead_seq htake ?_⟩
  rw [List.reverse_cons]
  exact hleft

theorem id_nil (before : Option Char) {c : Char} {rest : List Char} (hc : isDigit u c = false)
    (hhash : c = '#' → ∀ d, rest.head? = some d → isDigit u d = false) :
    (idRegex u).run ⟨before, [], c :: rest⟩ = [] := by
  have hhere : (Regex.seq (.char (isDigit u)) (.upTo 11 (.char (isDigit u)))).run
      ⟨before, [], c :: rest⟩ = [] := by
    apply number_nil
    intro d hd
    cases hd
    exact hc
  change ((Regex.char (· = '#')).run ⟨before, [], c :: rest⟩ ++
    [Place.mk before [] (c :: rest)]).flatMap
      (Regex.seq (.char (isDigit u)) (.upTo 11 (.char (isDigit u)))).run = []
  rw [List.flatMap_append, List.flatMap_singleton, hhere, List.append_nil]
  by_cases heq : c = '#'
  · subst heq
    rw [Regex.run_char rfl rfl, List.flatMap_singleton]
    exact number_nil before _ (hhash rfl)
  · rw [Regex.run_char_nil]
    · rfl
    · intro d hd
      cases hd
      exact decide_eq_false heq

theorem foundRun_digit {c : Char} {rest : List Char} (hc : isDigit u c = true) :
    foundRun u (c :: rest) = ((c :: rest).takeWhile (isDigit u)).take 12 := by
  unfold foundRun
  rw [List.dropWhile_cons_of_neg]
  simp [hc]

theorem foundRun_other {c : Char} {rest : List Char} (hc : isDigit u c = false) :
    foundRun u (c :: rest) = foundRun u rest := by
  unfold foundRun
  rw [List.dropWhile_cons_of_pos]
  simp [hc]

theorem search_id (hu : Standard u) (before : Option Char) (text : List Char) :
    (foundRun u text = [] ∧ (idRegex u).searchFrom before text = none) ∨
    (foundRun u text ≠ [] ∧ ∃ hash, (hash = [] ∨ hash = ['#']) ∧
      (idRegex u).searchFrom before text = some (hash ++ foundRun u text)) := by
  induction text generalizing before with
  | nil => exact .inl ⟨rfl, Regex.searchFrom_end rfl⟩
  | cons c rest ih =>
    cases hc : isDigit u c with
    | true =>
      right
      obtain ⟨left, hlead⟩ := id_lead_digit hu before rest hc
      rw [foundRun_digit hc]
      refine ⟨?_, [], .inl rfl, ?_⟩
      · rw [List.takeWhile_cons_of_pos hc, List.take_succ_cons]
        exact List.cons_ne_nil _ _
      · rw [Regex.searchFrom_of_lead hlead, List.reverse_reverse]
        rfl
    | false =>
      rw [foundRun_other hc]
      by_cases hhash : c = '#' ∧ ∃ d left, rest = d :: left ∧ isDigit u d = true
      · right
        obtain ⟨rfl, d, left, rfl, hd⟩ := hhash
        obtain ⟨tail, hlead⟩ := id_lead_hash before left hd
        rw [foundRun_digit hd]
        refine ⟨?_, ['#'], .inr rfl, ?_⟩
        · rw [List.takeWhile_cons_of_pos hd, List.take_succ_cons]
          exact List.cons_ne_nil _ _
        · rw [Regex.searchFrom_of_lead hlead, List.reverse_reverse]
          rfl
      · rw [Regex.searchFrom_skip]
        · exact ih (some c)
        · apply id_nil before hc
          rintro rfl d hd
          cases rest with
          | nil => cases hd
          | cons e left =>
            cases hd
            cases hd : isDigit u d with
            | false => rfl
            | true => exact absurd ⟨rfl, d, left, rfl, hd⟩ hhash

theorem foundRun_digits (u : Unicode) (text : List Char) :
    ∀ c ∈ foundRun u text, isDigit u c = true := by
  intro c hc
  exact List.mem_takeWhile_imp (List.mem_of_mem_take hc)

theorem parse_id (hu : Standard u) (verb : String) (text : List Char) :
    (match (idRegex u).search text with
      | none => some (Command.mk verb none)
      | some found => some ⟨verb, parseNat u (found.dropWhile (· = '#'))⟩) =
    some ⟨verb, foundId u text⟩ := by
  unfold foundId Regex.search
  obtain ⟨hnil, hsearch⟩ | ⟨hne, hash, hhash, hsearch⟩ := search_id hu none text
  · rw [hsearch, if_pos hnil]
  · have hdigits := foundRun_digits u text
    have hdrop : (hash ++ foundRun u text).dropWhile (· = '#') = foundRun u text := by
      have hself : (foundRun u text).dropWhile (· = '#') = foundRun u text := by
        cases hrun : foundRun u text with
        | nil => exact absurd hrun hne
        | cons c rest =>
          rw [hrun] at hdigits
          apply List.dropWhile_cons_of_neg
          simpa using isDigit_ne hu (hdigits c List.mem_cons_self) (d := '#') (by decide) (by decide)
      obtain rfl | rfl := hhash
      · exact hself
      · exact hself
    have hshort : (foundRun u text).length ≤ 4300 := by
      have htake := List.length_take_le 12 ((text.dropWhile fun c => !isDigit u c).takeWhile (isDigit u))
      unfold foundRun
      omega
    rw [hsearch]
    dsimp only
    rw [hdrop, parseNat_run hu hne hdigits hshort, if_neg hne]

theorem caseless_of_map (text : List Char) :
    List.Forall₂ (fun l c => ignoreCase l c = true) (text.map Char.toLower) text := by
  induction text with
  | nil => exact .nil
  | cons c rest ih =>
    refine .cons ?_ ih
    simp [ignoreCase]

theorem caseless {letters text : List Char} (h : text.map Char.toLower = letters) :
    List.Forall₂ (fun l c => ignoreCase l c = true) letters text := by
  rw [← h]
  exact caseless_of_map text

theorem map_of_caseless {letters text : List Char} (hplain : 's' ∉ letters)
    (h : List.Forall₂ (fun l c => ignoreCase l c = true) letters text) :
    text.map Char.toLower = letters := lowered_eq hplain (lowered_match h)

theorem other_letter {letter c : Char} (h : c.toLower ≠ letter) (hlong : c ≠ 'ſ') :
    ignoreCase letter c = false := by
  simp [ignoreCase, h, hlong]

theorem isWord_letter (hu : Standard u) {c : Char} (h : c.toLower.isLower = true) :
    isWord u c = true := by
  have hlt : c.toLower.toNat < 128 := by
    unfold Char.isLower at h
    simp only [Bool.and_eq_true, decide_eq_true_eq, UInt32.le_iff_toNat_le] at h
    exact Nat.lt_of_le_of_lt h.2 (by decide)
  have halnum : c.isAlphanum = true := by
    unfold Char.isAlphanum Char.isAlpha
    by_cases hupper : c.isUpper = true
    · simp [hupper]
    · have hsame : c.toLower = c := by
        unfold Char.toLower
        rw [dif_neg]
        unfold Char.isUpper at hupper
        simpa using hupper
      rw [hsame] at h
      simp [h]
  unfold isWord
  rw [hu.alnum c (toLower_ascii hlt), halnum]
  rfl

theorem isWord_space (hu : Standard u) {c : Char} (h : isSpace c = true) : isWord u c = false := by
  unfold isWord
  rw [hu.space c h, Bool.false_or]
  apply decide_eq_false
  rintro rfl
  cases h

theorem toLower_space {c : Char} (h : isSpace c = true) : c.toLower = c := by
  unfold Char.toLower
  rw [dif_neg]
  rintro ⟨hlow, hhigh⟩
  have hlow := UInt32.le_iff_toNat_le.mp hlow
  have hhigh := UInt32.le_iff_toNat_le.mp hhigh
  simp only [isSpace, Bool.or_eq_true, Bool.and_eq_true, decide_eq_true_eq] at h
  have hn : c.toNat = c.val.toNat := rfl
  simp at hlow hhigh
  omega

def prefixForms : List String := ["/autopr", "/auto-pr", "/autopr-bot", "/auto-pr-bot"]

theorem prefix_split {text : List Char} :
    String.ofList (text.map Char.toLower) ∈ prefixForms ↔
    ∃ auto hyphen pr bot : List Char, text = auto ++ (hyphen ++ (pr ++ bot)) ∧
      auto.map Char.toLower = "/auto".toList ∧
      (hyphen = [] ∨ hyphen.map Char.toLower = "-".toList) ∧
      pr.map Char.toLower = "pr".toList ∧
      (bot = [] ∨ bot.map Char.toLower = "-bot".toList) := by
  constructor
  · intro h
    have hcut : ∃ hyphen bot : List Char, (hyphen = [] ∨ hyphen = "-".toList) ∧
        (bot = [] ∨ bot = "-bot".toList) ∧
        text.map Char.toLower = "/auto".toList ++ (hyphen ++ ("pr".toList ++ bot)) := by
      simp only [prefixForms, List.mem_cons, List.not_mem_nil, or_false] at h
      have hlist : ∀ form : String, String.ofList (text.map Char.toLower) = form →
          text.map Char.toLower = form.toList := by
        rintro _ rfl
        rw [String.toList_ofList]
      obtain h | h | h | h := h
      · exact ⟨[], [], .inl rfl, .inl rfl, hlist _ h⟩
      · exact ⟨"-".toList, [], .inr rfl, .inl rfl, hlist _ h⟩
      · exact ⟨[], "-bot".toList, .inl rfl, .inr rfl, hlist _ h⟩
      · exact ⟨"-".toList, "-bot".toList, .inr rfl, .inr rfl, hlist _ h⟩
    obtain ⟨dash, suffix, hdash, hsuffix, heq⟩ := hcut
    obtain ⟨auto, rest, rfl, hauto, hrest⟩ := List.map_eq_append_iff.mp heq
    obtain ⟨hyphen, rest, rfl, hhyphen, hrest⟩ := List.map_eq_append_iff.mp hrest
    obtain ⟨pr, bot, rfl, hpr, hbot⟩ := List.map_eq_append_iff.mp hrest
    refine ⟨auto, hyphen, pr, bot, rfl, hauto, ?_, hpr, ?_⟩
    · rw [hhyphen]
      exact hdash.imp (fun hnil => List.map_eq_nil_iff.mp (hhyphen.trans hnil)) id
    · rw [hbot]
      exact hsuffix.imp (fun hnil => List.map_eq_nil_iff.mp (hbot.trans hnil)) id
  · rintro ⟨auto, hyphen, pr, bot, rfl, hauto, hhyphen, hpr, hbot⟩
    simp only [List.map_append, hauto, hpr]
    obtain rfl | hhyphen := hhyphen <;> obtain rfl | hbot := hbot
    · exact .head _
    · rw [hbot]
      exact .tail _ (.tail _ (.head _))
    · rw [hhyphen]
      exact .tail _ (.head _)
    · rw [hhyphen, hbot]
      exact .tail _ (.tail _ (.tail _ (.head _)))

theorem prefix_last (hu : Standard u) {text : List Char}
    (h : String.ofList (text.map Char.toLower) ∈ prefixForms) :
    text.reverse.head?.any (isWord u) = true := by
  have hlast : ∀ cs : List Char, cs.map Char.toLower = "pr".toList ∨
      cs.map Char.toLower = "-bot".toList → ∀ front : List Char,
      (front ++ cs).reverse.head?.any (isWord u) = true := by
    intro cs hcs front
    rw [List.reverse_append, List.head?_append]
    have hlower : ∃ c, cs.reverse.head? = some c ∧ c.toLower.isLower = true := by
      have hmap : (cs.map Char.toLower).reverse.head? = cs.reverse.head?.map Char.toLower := by
        rw [← List.map_reverse, List.head?_map]
      cases hhead : cs.reverse.head? with
      | none =>
        rw [hhead] at hmap
        obtain h | h := hcs <;> rw [h] at hmap <;> cases hmap
      | some c =>
        refine ⟨c, rfl, ?_⟩
        rw [hhead] at hmap
        obtain h | h := hcs <;> rw [h] at hmap <;> rw [← Option.some.inj hmap] <;> rfl
    obtain ⟨c, hc, hletter⟩ := hlower
    rw [hc]
    exact isWord_letter hu hletter
  obtain ⟨auto, hyphen, pr, bot, rfl, -, -, hpr, hbot⟩ := prefix_split.mp h
  obtain rfl | hbot := hbot
  · have happend : auto ++ (hyphen ++ (pr ++ [])) = (auto ++ hyphen) ++ pr := by simp
    rw [happend]
    exact hlast pr (.inl hpr) _
  · have happend : auto ++ (hyphen ++ (pr ++ bot)) = (auto ++ hyphen ++ pr) ++ bot := by simp
    rw [happend]
    exact hlast bot (.inr hbot) _

theorem prefix_match (hu : Standard u) {text tail : List Char}
    (h : String.ofList (text.map Char.toLower) ∈ prefixForms)
    (htail : ∃ c, tail.head? = some c ∧ isSpace c = true) :
    (prefixRegex u).matchPrefix (text ++ tail) = some (text, tail) := by
  have hlast := prefix_last hu h
  obtain ⟨space, hspace, hisspace⟩ := htail
  obtain ⟨auto, hyphen, pr, bot, rfl, hauto, hhyphen, hpr, hbot⟩ := prefix_split.mp h
  have hstart : (word "/auto").lead ⟨none, [], auto ++ (hyphen ++ (pr ++ (bot ++ tail)))⟩ =
      some ⟨none, auto.reverse, hyphen ++ (pr ++ (bot ++ tail))⟩ := by
    rw [← List.append_nil auto.reverse]
    exact Regex.lead_of_run (Regex.run_literal (caseless hauto))
  have hdash : (Regex.optional (word "-")).lead
      ⟨none, auto.reverse, hyphen ++ (pr ++ (bot ++ tail))⟩ =
        some ⟨none, hyphen.reverse ++ auto.reverse, pr ++ (bot ++ tail)⟩ := by
    obtain rfl | hhyphen := hhyphen
    · apply Regex.lead_right _ Regex.lead_empty
      apply Regex.run_literal_nil
      intro c hc
      obtain ⟨p, rest, rfl, hp, -⟩ := List.map_eq_cons_iff.mp hpr
      cases hc
      apply other_letter
      · rw [hp]
        decide
      · rintro rfl
        cases hp
    · exact Regex.lead_left (Regex.lead_of_run (Regex.run_literal (caseless hhyphen)))
  have hname : (word "pr").lead ⟨none, hyphen.reverse ++ auto.reverse, pr ++ (bot ++ tail)⟩ =
      some ⟨none, pr.reverse ++ (hyphen.reverse ++ auto.reverse), bot ++ tail⟩ :=
    Regex.lead_of_run (Regex.run_literal (caseless hpr))
  have hsuffix : (Regex.optional (word "-bot")).lead
      ⟨none, pr.reverse ++ (hyphen.reverse ++ auto.reverse), bot ++ tail⟩ =
        some ⟨none, (auto ++ (hyphen ++ (pr ++ bot))).reverse, tail⟩ := by
    simp only [List.reverse_append, List.append_assoc]
    obtain rfl | hbot := hbot
    · apply Regex.lead_right _ Regex.lead_empty
      apply Regex.run_literal_nil
      intro c hc
      obtain rfl := Option.some.inj (hspace.symm.trans hc)
      apply other_letter
      · rw [toLower_space hisspace]
        rintro rfl
        cases hisspace
      · rintro rfl
        cases hisspace
    · exact Regex.lead_left (Regex.lead_of_run (Regex.run_literal (caseless hbot)))
  have hend : (Regex.boundary (isWord u)).lead
      ⟨none, (auto ++ (hyphen ++ (pr ++ bot))).reverse, tail⟩ =
        some ⟨none, (auto ++ (hyphen ++ (pr ++ bot))).reverse, tail⟩ := by
    apply Regex.lead_boundary
    have hbefore : (Place.mk none (auto ++ (hyphen ++ (pr ++ bot))).reverse tail).previous.any
        (isWord u) = true := by
      unfold Place.previous
      rw [Option.or_none]
      exact hlast
    rw [hbefore, hspace, Option.any_some, isWord_space hu hisspace]
    exact Bool.noConfusion
  have happend : auto ++ (hyphen ++ (pr ++ bot)) ++ tail =
      auto ++ (hyphen ++ (pr ++ (bot ++ tail))) := by simp
  have hlead := Regex.lead_seq hstart (Regex.lead_seq hdash (Regex.lead_seq hname
    (Regex.lead_seq hsuffix hend)))
  rw [← happend] at hlead
  exact Regex.matchPrefix_of_lead hlead

theorem verb_letters (hu : Standard u) {verb : String} {text : List Char}
    (hverb : verb = "approve" ∨ verb = "reject") (htext : text.map Char.toLower = verb.toList) :
    (∃ c rest, text = c :: rest ∧ (c.toLower = 'a' ∨ c.toLower = 'r')) ∧
      text.reverse.head?.any (isWord u) = true := by
  constructor
  · obtain rfl | rfl := hverb
    · obtain ⟨c, rest, rfl, hc, -⟩ := List.map_eq_cons_iff.mp htext
      exact ⟨c, rest, rfl, .inl hc⟩
    · obtain ⟨c, rest, rfl, hc, -⟩ := List.map_eq_cons_iff.mp htext
      exact ⟨c, rest, rfl, .inr hc⟩
  · have hmap : (text.map Char.toLower).reverse.head? = text.reverse.head?.map Char.toLower := by
      rw [← List.map_reverse, List.head?_map]
    rw [htext] at hmap
    cases hhead : text.reverse.head? with
    | none =>
      rw [hhead] at hmap
      obtain rfl | rfl := hverb <;> cases hmap
    | some c =>
      rw [hhead] at hmap
      apply isWord_letter hu
      obtain rfl | rfl := hverb <;> rw [← Option.some.inj hmap] <;> rfl

theorem verb_run (hu : Standard u) {verb : String} {text tail : List Char}
    (hverb : verb = "approve" ∨ verb = "reject") (htext : text.map Char.toLower = verb.toList) :
    (verbRegex u).run ⟨none, [], text ++ tail⟩ =
      if tail.head?.any (isWord u) then [] else [⟨none, text.reverse, tail⟩] := by
  obtain ⟨⟨c, rest, hcons, hc⟩, hlast⟩ := verb_letters hu hverb htext
  have hhead : (text ++ tail).head? = some c := by rw [hcons]; rfl
  have hplain : c ≠ 'ſ' := by
    rintro rfl
    obtain hc | hc := hc <;> cases hc
  have hmiss : ∀ letter : Char, ∀ letters, c.toLower ≠ letter →
      (Regex.literal ignoreCase (letter :: letters)).run ⟨none, [], text ++ tail⟩ = [] := by
    intro letter letters hne
    apply Regex.run_literal_nil
    intro d hd
    cases hhead.symm.trans hd
    exact other_letter hne hplain
  have hhit : ∀ literal : String, text.map Char.toLower = literal.toList →
      (word literal).run ⟨none, [], text ++ tail⟩ = [⟨none, text.reverse, tail⟩] := by
    intro literal hliteral
    rw [← List.append_nil text.reverse]
    exact Regex.run_literal (caseless hliteral)
  have hstatus : (word "status").run ⟨none, [], text ++ tail⟩ = [] := by
    apply hmiss
    obtain hc | hc := hc <;> rw [hc] <;> decide
  have hhelp : (word "help").run ⟨none, [], text ++ tail⟩ = [] := by
    apply hmiss
    obtain hc | hc := hc <;> rw [hc] <;> decide
  have hwords : (Regex.alt (word "approve") (.alt (word "reject")
      (.alt (word "status") (word "help")))).run ⟨none, [], text ++ tail⟩ =
        [⟨none, text.reverse, tail⟩] := by
    change (word "approve").run _ ++ ((word "reject").run _ ++
      ((word "status").run _ ++ (word "help").run _)) = _
    rw [hstatus, hhelp]
    obtain rfl | rfl := hverb
    · have hreject : (word "reject").run ⟨none, [], text ++ tail⟩ = [] := by
        obtain ⟨d, _, heq, hd, -⟩ := List.map_eq_cons_iff.mp htext
        cases hcons.symm.trans heq
        apply hmiss
        rw [hd]
        decide
      rw [hreject, hhit _ htext]
      rfl
    · have happrove : (word "approve").run ⟨none, [], text ++ tail⟩ = [] := by
        obtain ⟨d, _, heq, hd, -⟩ := List.map_eq_cons_iff.mp htext
        cases hcons.symm.trans heq
        apply hmiss
        rw [hd]
        decide
      rw [happrove, hhit _ htext]
      rfl
  change (Regex.run _ _).flatMap (Regex.boundary (isWord u)).run = _
  rw [hwords, List.flatMap_singleton]
  have hbefore : (Place.mk none text.reverse tail).previous.any (isWord u) = true := by
    unfold Place.previous
    rw [Option.or_none]
    exact hlast
  rw [Regex.run_boundary, hbefore]
  cases tail.head?.any (isWord u) <;> rfl

theorem strip_leading {gap cs : List Char} (hgap : ∀ c ∈ gap, isSpace c = true)
    (h : Trimmed cs) : strip (String.ofList (gap ++ cs)) = String.ofList cs := by
  rw [← String.toList_inj, toList_strip, String.toList_ofList, String.toList_ofList,
    List.dropWhile_append_of_pos hgap, dropWhile_of_front h.front, List.rdropWhile,
    dropWhile_of_front, List.reverse_reverse]
  intro c hc
  rw [List.head?_reverse] at hc
  exact h.back c hc

theorem mem_word {literal : String} {p q : Place} (hplain : 's' ∉ literal.toList)
    (h : q ∈ (word literal).run p) :
    ∃ text : List Char, text.map Char.toLower = literal.toList ∧
      q.taken = text.reverse ++ p.taken ∧ p.rest = text ++ q.rest := by
  obtain ⟨text, hall, htaken, hrest⟩ := Regex.mem_run_literal_rest h
  exact ⟨text, map_of_caseless hplain hall, htaken, hrest⟩

theorem mem_optional {literal : String} {p q : Place} (hplain : 's' ∉ literal.toList)
    (h : q ∈ (Regex.optional (word literal)).run p) :
    ∃ text : List Char, (text = [] ∨ text.map Char.toLower = literal.toList) ∧
      q.taken = text.reverse ++ p.taken ∧ p.rest = text ++ q.rest := by
  obtain hword | hempty := Regex.mem_run_alt.mp h
  · obtain ⟨text, htext, htaken, hrest⟩ := mem_word hplain hword
    exact ⟨text, .inr htext, htaken, hrest⟩
  · obtain rfl := List.mem_singleton.mp hempty
    exact ⟨[], .inl rfl, rfl, rfl⟩

theorem prefix_of_match (hu : Standard u) {line taken tail : List Char}
    (h : (prefixRegex u).matchPrefix line = some (taken, tail)) :
    line = taken ++ tail ∧ String.ofList (taken.map Char.toLower) ∈ prefixForms ∧
      tail.head?.any (isWord u) = false := by
  obtain ⟨p, hp, rfl, rfl⟩ := Regex.matchPrefix_eq_some h
  obtain ⟨m₁, hauto, hp⟩ := Regex.mem_run_seq.mp hp
  obtain ⟨m₂, hhyphen, hp⟩ := Regex.mem_run_seq.mp hp
  obtain ⟨m₃, hpr, hp⟩ := Regex.mem_run_seq.mp hp
  obtain ⟨m₄, hbot, hp⟩ := Regex.mem_run_seq.mp hp
  obtain ⟨rfl, hboundary⟩ := Regex.mem_run_boundary_iff.mp hp
  obtain ⟨auto, hauto, htaken₁, hrest₁⟩ := mem_word (by decide) hauto
  obtain ⟨hyphen, hhyphen, htaken₂, hrest₂⟩ := mem_optional (by decide) hhyphen
  obtain ⟨pr, hpr, htaken₃, hrest₃⟩ := mem_word (by decide) hpr
  obtain ⟨bot, hbot, htaken₄, hrest₄⟩ := mem_optional (by decide) hbot
  have htaken : p.taken.reverse = auto ++ (hyphen ++ (pr ++ bot)) := by
    rw [htaken₄, htaken₃, htaken₂, htaken₁]
    simp
  have hform : String.ofList (p.taken.reverse.map Char.toLower) ∈ prefixForms :=
    prefix_split.mpr ⟨auto, hyphen, pr, bot, htaken, hauto, hhyphen, hpr, hbot⟩
  have hbefore : p.previous.any (isWord u) = true := by
    have hlast := prefix_last hu hform
    rw [List.reverse_reverse] at hlast
    unfold Place.previous
    cases hhead : p.taken.head? with
    | none =>
      rw [hhead] at hlast
      cases hlast
    | some c =>
      rw [hhead] at hlast
      exact hlast
  refine ⟨?_, hform, ?_⟩
  · rw [htaken]
    dsimp only at hrest₁
    rw [hrest₁, hrest₂, hrest₃, hrest₄]
    simp
  · rw [hbefore] at hboundary
    exact Bool.eq_false_iff.mpr fun htrue => hboundary htrue.symm

theorem verb_of_match {verb : String} {text group tail : List Char}
    (hverb : verb = "approve" ∨ verb = "reject")
    (h : (verbRegex u).matchPrefix text = some (group, tail))
    (hlower : u.lower (String.ofList group) = verb) :
    text = group ++ tail ∧ group.map Char.toLower = verb.toList := by
  obtain ⟨p, hp, rfl, rfl⟩ := Regex.matchPrefix_eq_some h
  obtain ⟨m, hm, hp⟩ := Regex.mem_run_seq.mp hp
  obtain rfl := Regex.mem_run_boundary hp
  have hplain : ∀ literal : String, 's' ∉ literal.toList → (∀ l ∈ literal.toList, l.toNat < 128) →
      p ∈ (word literal).run ⟨none, [], text⟩ →
      text = p.taken.reverse ++ p.rest ∧ p.taken.reverse.map Char.toLower = verb.toList := by
    intro literal hplain hascii hmem
    obtain ⟨found, hfound, htaken, hrest⟩ := mem_word hplain hmem
    rw [List.append_nil] at htaken
    have hlowered := plain_match (u := u) hascii hplain rfl hmem
    rw [hlower] at hlowered
    rw [htaken, List.reverse_reverse, hlowered]
    exact ⟨hrest, hfound⟩
  obtain happrove | hm := Regex.mem_run_alt.mp hm
  · exact hplain _ (by decide) (by simp) happrove
  obtain hreject | hm := Regex.mem_run_alt.mp hm
  · exact hplain _ (by decide) (by simp) hreject
  obtain hstatus | hhelp := Regex.mem_run_alt.mp hm
  · obtain ⟨lowered, heq, hall⟩ := word_match (u := u) (by simp) rfl hstatus
    have hmem := lowered_status hall
    rw [← heq, hlower] at hmem
    have hother : verb ∉ "status" :: longStatus := by
      obtain rfl | rfl := hverb <;> decide
    exact absurd hmem hother
  · exact hplain _ (by decide) (by simp) hhelp

end

theorem ascii_standard : Standard .ascii where
  alnum _ _ := rfl
  digit _ _ := rfl
  space c h := by
    simp only [isSpace, Bool.or_eq_true, Bool.and_eq_true, decide_eq_true_eq] at h
    have hn : c.toNat = c.val.toNat := rfl
    have hbounds : 'A'.val.toNat = 65 ∧ 'Z'.val.toNat = 90 ∧ 'a'.val.toNat = 97 ∧
        'z'.val.toNat = 122 ∧ '0'.val.toNat = 48 ∧ '9'.val.toNat = 57 := by decide
    dsimp only [Unicode.ascii]
    unfold Char.isAlphanum Char.isAlpha Char.isUpper Char.isLower Char.isDigit
    simp only [Bool.or_eq_false_iff, Bool.and_eq_false_iff, decide_eq_false_iff_not, ge_iff_le,
      UInt32.le_iff_toNat_le]
    omega
  digit_alnum c h := by
    cases hc : c.isDigit with
    | true => simp [Unicode.ascii, Char.isAlphanum, hc]
    | false => simp [Unicode.ascii, hc] at h

end AutoPR.Commands
