import AutoPR.Library.Strip
import AutoPR.Pipeline.Agents

/-! The parts of an answer in which its JSON is looked for, when a text stands in prose: the
stripped answer, what the first two fences hold, and the spans between brackets. -/
namespace AutoPR.Pipeline
open Python

section
variable {mark x y : List Char}

/-- The text does not end in a character of the mark, so that the mark cannot begin in it and end
behind it. -/
def EndsApart (mark x : List Char) : Prop := ∀ c, x.getLast? = some c → c ∉ mark

theorem EndsApart.tail {c : Char} (h : EndsApart mark (c :: x)) : EndsApart mark x := by
  intro d hd
  apply h d
  cases x with
  | nil => cases hd
  | cons e x => rwa [List.getLast?_cons_cons]

theorem isPrefixOf_append (hne : x ≠ []) (h : EndsApart mark x) :
    mark.isPrefixOf (x ++ y) = mark.isPrefixOf x := by
  induction mark generalizing x with
  | nil => simp
  | cons m mark ih =>
    cases x with
    | nil => exact absurd rfl hne
    | cons c x =>
      rw [List.cons_append, List.isPrefixOf, List.isPrefixOf]
      cases x with
      | nil =>
        have hc : c ≠ m := by
          rintro rfl
          exact h c rfl List.mem_cons_self
        have hm : (m == c) = false := beq_eq_false_iff_ne.mpr hc.symm
        rw [hm, Bool.false_and, Bool.false_and]
      | cons d x =>
        rw [ih (List.cons_ne_nil d x)]
        intro e he hmem
        exact h.tail e he (List.mem_cons_of_mem m hmem)

theorem partition_append (h : EndsApart mark x) :
    partition mark (x ++ y) =
      match partition mark x with
      | some (before, after) => some (before, after ++ y)
      | none => (partition mark y).map fun (before, after) => (x ++ before, after) := by
  induction x with
  | nil =>
    cases hy : partition mark y <;> simp [partition, hy]
  | cons c x ih =>
    have hbegins := @isPrefixOf_append mark (c :: x) y (List.cons_ne_nil c x) h
    rw [List.cons_append] at hbegins ⊢
    rw [partition, partition, hbegins]
    split
    · rename_i hmark
      have hlength := (List.isPrefixOf_iff_prefix.mp hmark).length_le
      rw [← List.cons_append, List.drop_append_of_le_length hlength]
    · rw [ih h.tail]
      cases partition mark x with
      | some _ => rfl
      | none => cases partition mark y <;> rfl

theorem partition_of_not_mem {c : Char} (hx : c ∉ x) : partition (c :: mark) x = none := by
  induction x with
  | nil => rfl
  | cons d x ih =>
    obtain ⟨hne, hmem⟩ := not_or.mp (mt List.mem_cons.mpr hx)
    have hbegins : (c :: mark).isPrefixOf (d :: x) = false := by
      rw [List.isPrefixOf, beq_eq_false_iff_ne.mpr hne, Bool.false_and]
    rw [partition, hbegins, ih hmem]
    rfl

theorem partition_split {before after : List Char} (h : partition mark x = some (before, after)) :
    x = before ++ (mark ++ after) := by
  induction x generalizing before with
  | nil => cases h
  | cons c x ih =>
    rw [partition] at h
    split at h
    · rename_i hmark
      obtain ⟨rest, hrest⟩ := List.isPrefixOf_iff_prefix.mp hmark
      cases h
      rw [← hrest, List.drop_left]
      rfl
    · obtain ⟨⟨b, a⟩, hsome, heq⟩ := Option.map_eq_some_iff.mp h
      cases heq
      exact congrArg (c :: ·) (ih hsome)

theorem partition_eq_none_iff (hmark : mark ≠ []) : partition mark x = none ↔ ¬ mark <:+: x := by
  constructor
  · rintro hnone ⟨before, after, hsplit⟩
    induction x generalizing before with
    | nil => simp [hmark] at hsplit
    | cons c x ih =>
      rw [partition] at hnone
      split at hnone
      · cases hnone
      · rename_i hbegins
        cases before with
        | nil => exact hbegins (List.isPrefixOf_iff_prefix.mpr ⟨after, hsplit⟩)
        | cons d before =>
          have hrest : before ++ mark ++ after = x := (List.cons.inj hsplit).2
          exact ih (Option.map_eq_none_iff.mp hnone) before hrest
  · intro hnot
    cases hpart : partition mark x with
    | none => rfl
    | some parts =>
      have hsplit := partition_split hpart
      refine absurd ⟨parts.1, parts.2, ?_⟩ hnot
      rw [hsplit, List.append_assoc]

theorem EndsApart.of_suffix (h : EndsApart mark x) (hsuffix : y <:+ x) : EndsApart mark y := by
  intro c hc
  obtain ⟨front, rfl⟩ := hsuffix
  apply h c
  rw [List.getLast?_append, hc]
  rfl

theorem EndsApart.of_not_mem (h : ∀ c ∈ x, c ∉ mark) : EndsApart mark x :=
  fun c hc => h c (List.mem_of_getLast? hc)

theorem partition_mark (hmark : mark ≠ []) (rest : List Char) :
    partition mark (mark ++ rest) = some ([], rest) := by
  cases mark with
  | nil => exact absurd rfl hmark
  | cons c mark =>
    have hbegins : (c :: mark).isPrefixOf (c :: (mark ++ rest)) = true :=
      List.isPrefixOf_iff_prefix.mpr ⟨rest, rfl⟩
    rw [List.cons_append, partition, hbegins, ← List.cons_append, List.drop_left]
    rfl

end

def jsonLabel : List Char := ['j', 's', 'o', 'n']

def dropLabel (opened : List Char) : List Char :=
  if jsonLabel.isPrefixOf opened then opened.drop 4 else opened

theorem fencedBlock_eq (text : List Char) :
    fencedBlock text = (partition fence text).bind fun parts =>
      (partition fence (dropLabel parts.2)).map fun inner => strip (String.ofList inner.1) := by
  unfold fencedBlock dropLabel jsonLabel
  cases partition fence text with
  | none => rfl
  | some parts =>
    obtain ⟨before, opened⟩ := parts
    dsimp only [bind, Option.bind]
    cases partition fence (if List.isPrefixOf ['j', 's', 'o', 'n'] opened then opened.drop 4
      else opened) <;> rfl

theorem dropLabel_suffix (opened : List Char) : dropLabel opened <:+ opened := by
  unfold dropLabel
  split
  · exact List.drop_suffix 4 opened
  · exact List.suffix_refl opened

theorem dropLabel_split (opened : List Char) :
    ∃ label, opened = label ++ dropLabel opened ∧ (label = [] ∨ label = jsonLabel) := by
  unfold dropLabel
  split
  · rename_i hbegins
    obtain ⟨rest, rfl⟩ := List.isPrefixOf_iff_prefix.mp hbegins
    exact ⟨jsonLabel, rfl, .inr rfl⟩
  · exact ⟨[], rfl, .inl rfl⟩

section
variable {p t q : List Char}

theorem not_mem_fence {c : Char} (h : c ≠ '`') : c ∉ fence := by
  unfold fence
  simpa using h

theorem partition_plain (hp : '`' ∉ p) : partition fence p = none := partition_of_not_mem hp

theorem endsApart_plain (hp : '`' ∉ p) : EndsApart fence p := by
  apply EndsApart.of_not_mem
  intro c hc
  apply not_mem_fence
  rintro rfl
  exact hp hc

theorem partition_before (hp : '`' ∉ p) (rest : List Char) :
    partition fence (p ++ rest) =
      (partition fence rest).map fun parts => (p ++ parts.1, parts.2) := by
  rw [partition_append (endsApart_plain hp), partition_plain hp]

theorem partition_behind (ht : EndsApart fence t) (hq : '`' ∉ q) :
    partition fence (t ++ q) =
      (partition fence t).map fun parts => (parts.1, parts.2 ++ q) := by
  rw [partition_append ht, partition_plain hq]
  cases partition fence t <;> rfl

theorem fencedBlock_embedded (hp : '`' ∉ p) (hq : '`' ∉ q) (hfence : EndsApart fence t)
    (hlabel : EndsApart jsonLabel t) : fencedBlock (p ++ (t ++ q)) = fencedBlock t := by
  rw [fencedBlock_eq, fencedBlock_eq, partition_before hp, partition_behind hfence hq]
  cases hpart : partition fence t with
  | none => rfl
  | some parts =>
    obtain ⟨before, opened⟩ := parts
    have hsplit := partition_split hpart
    have hsuffix : opened <:+ t := ⟨before ++ fence, by rw [hsplit, List.append_assoc]⟩
    have hopened : opened ≠ [] := by
      rintro rfl
      apply hfence '`'
      · rw [hsplit]
        simp [fence]
      · exact List.mem_cons_self
    have hdrop : dropLabel (opened ++ q) = dropLabel opened ++ q := by
      unfold dropLabel
      rw [isPrefixOf_append hopened (hlabel.of_suffix hsuffix)]
      split
      · rename_i hbegins
        have hlength := (List.isPrefixOf_iff_prefix.mp hbegins).length_le
        exact List.drop_append_of_le_length hlength
      · rfl
    have hapart : EndsApart fence (dropLabel opened) :=
      hfence.of_suffix ((dropLabel_suffix opened).trans hsuffix)
    dsimp only [Option.map, Option.bind]
    rw [hdrop, partition_behind hapart hq]
    cases partition fence (dropLabel opened) <;> rfl

theorem dropLabel_label {label rest : List Char} (hlabel : label = [] ∨ label = jsonLabel)
    (hrest : rest.head? ≠ some 'j') : dropLabel (label ++ rest) = rest := by
  obtain rfl | rfl := hlabel
  · have hbegins : jsonLabel.isPrefixOf rest = false := by
      cases rest with
      | nil => rfl
      | cons c rest =>
        have hc : c ≠ 'j' := fun heq => hrest (congrArg some heq)
        unfold jsonLabel
        rw [List.isPrefixOf, beq_eq_false_iff_ne.mpr hc.symm, Bool.false_and]
    unfold dropLabel
    rw [List.nil_append, hbegins]
    rfl
  · have hbegins : jsonLabel.isPrefixOf (jsonLabel ++ rest) = true :=
      List.isPrefixOf_iff_prefix.mpr ⟨rest, rfl⟩
    unfold dropLabel
    rw [if_pos hbegins]
    rfl

theorem not_mem_of_space {c : Char} (hc : isSpace c = false) (hp : ∀ d ∈ p, isSpace d = true) :
    c ∉ p := by
  intro hmem
  rw [hp c hmem] at hc
  cases hc

def wrap (label before t after : List Char) : List Char :=
  fence ++ (label ++ (before ++ (t ++ (after ++ fence))))

theorem wrap_ends (label before t after : List Char) :
    (wrap label before t after).head? = some '`' ∧
      (wrap label before t after).getLast? = some '`' := by
  constructor
  · rfl
  · unfold wrap fence
    simp only [List.getLast?_append]
    rfl

/-- What a block of fences holds that has a text with fences in it: the text up to its first. -/
def fenceless (t after : List Char) : List Char :=
  match partition fence t with
  | some (before, _) => before
  | none => t ++ after

theorem fencedBlock_wrapped {label before after : List Char} {c : Char} (hp : '`' ∉ p)
    (hlabel : label = [] ∨ label = jsonLabel) (hbefore : ∀ d ∈ before, isSpace d = true)
    (hafter : ∀ d ∈ after, isSpace d = true) (hfence : EndsApart fence t)
    (hhead : t.head? = some c) (hc : c ≠ 'j') :
    fencedBlock (p ++ (wrap label before t after ++ q)) =
      some (strip (String.ofList (before ++ fenceless t after))) := by
  have hrest : wrap label before t after ++ q =
      fence ++ (label ++ (before ++ (t ++ (after ++ (fence ++ q))))) := by
    unfold wrap
    simp only [List.append_assoc]
  have hlabelled : dropLabel (label ++ (before ++ (t ++ (after ++ (fence ++ q))))) =
      before ++ (t ++ (after ++ (fence ++ q))) := by
    apply dropLabel_label hlabel
    cases before with
    | nil =>
      rw [List.nil_append, List.head?_append, hhead]
      simpa using hc
    | cons d before =>
      have hspace := hbefore d List.mem_cons_self
      intro hj
      cases hj
      exact absurd hspace (by decide)
  have htick : isSpace '`' = false := by decide
  have hmark : fence ≠ [] := by decide
  have hinner : partition fence (before ++ (t ++ (after ++ (fence ++ q)))) =
      some (before ++ fenceless t after,
        match partition fence t with
        | some (_, rest) => rest ++ (after ++ (fence ++ q))
        | none => q) := by
    rw [partition_before (not_mem_of_space htick hbefore), partition_append hfence]
    unfold fenceless
    cases partition fence t with
    | some parts => rfl
    | none =>
      rw [partition_before (not_mem_of_space htick hafter), partition_mark hmark]
      simp
  rw [fencedBlock_eq, hrest, partition_before hp, partition_mark hmark]
  dsimp only [Option.map, Option.bind]
  rw [hlabelled, hinner]

theorem bracketSpan_eq (opening closing : Char) (text : List Char) :
    bracketSpan opening closing text =
      let span := (text.dropWhile (· ≠ opening)).rdropWhile (· ≠ closing)
      if span = [] then none else some (String.ofList span) := rfl

theorem bracketSpan_embedded {opening closing : Char} (hp : opening ∉ p)
    (hq : opening ∉ q ∧ closing ∉ q) :
    bracketSpan opening closing (p ++ (t ++ q)) = bracketSpan opening closing t := by
  have hdrop {x : List Char} {c : Char} (hx : c ∉ x) : ∀ d ∈ x, decide (d ≠ c) = true := by
    intro d hd
    apply decide_eq_true
    rintro rfl
    exact hx hd
  have hfront : (p ++ (t ++ q)).dropWhile (· ≠ opening) = (t ++ q).dropWhile (· ≠ opening) :=
    List.dropWhile_append_of_pos (hdrop hp)
  have hback : ((t ++ q).dropWhile (· ≠ opening)).rdropWhile (· ≠ closing) =
      (t.dropWhile (· ≠ opening)).rdropWhile (· ≠ closing) := by
    rw [List.dropWhile_append]
    split
    · rename_i hempty
      rw [List.isEmpty_iff.mp hempty, List.dropWhile_eq_nil_iff.mpr (hdrop hq.1)]
    · unfold List.rdropWhile
      rw [List.reverse_append, List.dropWhile_append_of_pos]
      intro d hd
      exact hdrop hq.2 d (List.mem_reverse.mp hd)
  rw [bracketSpan_eq, bracketSpan_eq, hfront, hback]

theorem bracketSpan_self {opening closing : Char} (hhead : t.head? = some opening)
    (hlast : t.getLast? = some closing) :
    bracketSpan opening closing t = some (String.ofList t) := by
  have hne : t ≠ [] := by
    rintro rfl
    cases hhead
  have hfront : t.dropWhile (· ≠ opening) = t := by
    apply @dropWhile_append_of_front [] t _ hne
    intro c hc
    cases hhead.symm.trans hc
    simp
  have hback : t.rdropWhile (· ≠ closing) = t := by
    have happend := @rdropWhile_append_of_back t [] (· ≠ closing) hne
    rw [List.append_nil, List.rdropWhile_nil, List.append_nil] at happend
    apply happend
    intro c hc
    cases hlast.symm.trans hc
    simp
  rw [bracketSpan_eq, hfront, hback]
  exact if_neg hne

theorem bracketSpan_spec {opening closing : Char} {s : String}
    (h : bracketSpan opening closing t = some s) :
    s.toList <:+: t ∧ s.toList.head? = some opening := by
  rw [bracketSpan_eq] at h
  dsimp only at h
  split at h
  · cases h
  · rename_i hne
    cases h
    rw [String.toList_ofList]
    have hprefix := List.rdropWhile_prefix (· ≠ closing) (t.dropWhile (· ≠ opening))
    constructor
    · exact hprefix.isInfix.trans (List.dropWhile_suffix _).isInfix
    · obtain ⟨tail, heq⟩ := hprefix
      have hnot := List.head?_dropWhile_not (· ≠ opening) t
      rw [← heq, List.head?_append_of_ne_nil _ hne] at hnot
      cases hhead : (List.rdropWhile (· ≠ closing) (t.dropWhile (· ≠ opening))).head? with
      | none => exact absurd (List.head?_eq_none_iff.mp hhead) hne
      | some c =>
        rw [hhead] at hnot
        simpa using hnot

end

end AutoPR.Pipeline
