import AutoPR.Library.JsonDepth
import AutoPR.Library.JsonStrings
import AutoPR.Pipeline.Spans

/-! When `parse_json` gives back a value that has been written into prose. It reads the answer as
a whole first, then what the first two fences hold, then the span of the braces, then the span of
the brackets. -/
namespace AutoPR.Pipeline
open Python
open Json (Value Failure Kind)

section
variable {V : Type} (loads : List Char → Except Failure V)

/-- The first of the texts that is JSON. Only the decode error is caught; the error of an integer
that is too long is a `ValueError` as well, a `RecursionError` is not. -/
def firstValue : List String → Py V
  | [] => throw .valueError
  | text :: rest =>
      match loads text.toList with
      | .ok v => pure v
      | .error .decodeError => firstValue rest
      | .error .tooLong => throw .valueError
      | .error .tooDeep => throw .recursionError

/-- `parse_json`, with what it raises. -/
def parseJsonPy (text : String) : Py V :=
  let text := strip text
  firstValue loads (text :: ([fencedBlock text.toList, bracketSpan '{' '}' text.toList,
    bracketSpan '[' ']' text.toList].filterMap id))

end

def toLoaded : Except Failure PyVal → Webhook.Loaded
  | .ok v => .value v
  | .error .decodeError => .decodeError
  | .error .tooLong | .error .tooDeep => .raised

theorem firstJson_eq (loads : List Char → Except Failure PyVal) (texts : List String) :
    firstJson (fun s => toLoaded (loads s.toList)) texts = (firstValue loads texts).toOption := by
  induction texts with
  | nil => rfl
  | cons text rest ih =>
    unfold firstJson firstValue
    cases loads text.toList with
    | ok v => rfl
    | error e =>
      cases e with
      | decodeError => exact ih
      | tooLong | tooDeep => rfl

theorem parseJson_eq (loads : List Char → Except Failure PyVal) (text : String) :
    parseJson (fun s => toLoaded (loads s.toList)) text = (parseJsonPy loads text).toOption :=
  firstJson_eq loads _

section
variable {V : Type} {loads : List Char → Except Failure V} {v : V}

/-- There is no text, or it is no JSON. -/
def Fails (loads : List Char → Except Failure V) (text : Option String) : Prop :=
  ∀ s, text = some s → loads s.toList = .error .decodeError

def Gives (loads : List Char → Except Failure V) (text : Option String) (v : V) : Prop :=
  ∃ s, text = some s ∧ loads s.toList = .ok v

theorem firstValue_iff {text : Option String} {rest : List (Option String)} :
    firstValue loads ((text :: rest).filterMap id) = .ok v ↔
      Gives loads text v ∨ Fails loads text ∧ firstValue loads (rest.filterMap id) = .ok v := by
  cases text with
  | none => simp [Gives, Fails]
  | some s =>
    have hlist : (some s :: rest).filterMap id = s :: rest.filterMap id := rfl
    have hgives : Gives loads (some s) v ↔ loads s.toList = .ok v := by simp [Gives]
    have hfails : Fails loads (some s) ↔ loads s.toList = .error .decodeError := by simp [Fails]
    rw [hlist, hgives, hfails, firstValue]
    cases loads s.toList with
    | ok w => simp [pure, Except.pure]
    | error e => cases e <;> simp [throw, throwThe, MonadExceptOf.throw]

theorem parseJsonPy_iff {text : String} :
    parseJsonPy loads text = .ok v ↔
      Gives loads (some (strip text)) v ∨ Fails loads (some (strip text)) ∧
        (Gives loads (fencedBlock (strip text).toList) v ∨
          Fails loads (fencedBlock (strip text).toList) ∧
            (Gives loads (bracketSpan '{' '}' (strip text).toList) v ∨
              Fails loads (bracketSpan '{' '}' (strip text).toList) ∧
                Gives loads (bracketSpan '[' ']' (strip text).toList) v)) := by
  have hlast : firstValue loads (([] : List (Option String)).filterMap id) ≠ .ok v := by
    intro h
    cases h
  have hlist : parseJsonPy loads text = firstValue loads ((some (strip text) ::
      [fencedBlock (strip text).toList, bracketSpan '{' '}' (strip text).toList,
        bracketSpan '[' ']' (strip text).toList]).filterMap id) := rfl
  rw [hlist, firstValue_iff, firstValue_iff, firstValue_iff, firstValue_iff]
  simp only [hlast, and_false, or_false]

def Overruns (loads : List Char → Except Failure V) (text : Option String) : Prop :=
  ∃ s, text = some s ∧ loads s.toList = .error .tooDeep

/-- The reader has no room for the first of the texts looked at that it gives another verdict on
than that it is no JSON. -/
def RunsDeep (loads : List Char → Except Failure V) (text : String) : Prop :=
  Overruns loads (some (strip text)) ∨ Fails loads (some (strip text)) ∧
    (Overruns loads (fencedBlock (strip text).toList) ∨
      Fails loads (fencedBlock (strip text).toList) ∧
        (Overruns loads (bracketSpan '{' '}' (strip text).toList) ∨
          Fails loads (bracketSpan '{' '}' (strip text).toList) ∧
            Overruns loads (bracketSpan '[' ']' (strip text).toList)))

theorem firstValue_recursionError_iff {text : Option String} {rest : List (Option String)} :
    firstValue loads ((text :: rest).filterMap id) = .error .recursionError ↔
      Overruns loads text ∨
        Fails loads text ∧ firstValue loads (rest.filterMap id) = .error .recursionError := by
  cases text with
  | none => simp [Overruns, Fails]
  | some s =>
    have hlist : (some s :: rest).filterMap id = s :: rest.filterMap id := rfl
    have hoverruns : Overruns loads (some s) ↔ loads s.toList = .error .tooDeep := by
      simp [Overruns]
    have hfails : Fails loads (some s) ↔ loads s.toList = .error .decodeError := by simp [Fails]
    rw [hlist, hoverruns, hfails, firstValue]
    cases loads s.toList with
    | ok w => simp [pure, Except.pure]
    | error e => cases e <;> simp [throw, throwThe, MonadExceptOf.throw]

theorem parseJsonPy_recursionError_iff {text : String} :
    parseJsonPy loads text = .error .recursionError ↔ RunsDeep loads text := by
  have hlast : firstValue loads (([] : List (Option String)).filterMap id) ≠
      .error .recursionError := by
    intro h
    cases h
  have hlist : parseJsonPy loads text = firstValue loads ((some (strip text) ::
      [fencedBlock (strip text).toList, bracketSpan '{' '}' (strip text).toList,
        bracketSpan '[' ']' (strip text).toList]).filterMap id) := rfl
  rw [hlist, firstValue_recursionError_iff, firstValue_recursionError_iff,
    firstValue_recursionError_iff, firstValue_recursionError_iff]
  simp only [hlast, and_false, or_false]
  rfl

theorem firstValue_error {texts : List String} {e : PyError}
    (h : firstValue loads texts = .error e) : e = .valueError ∨ e = .recursionError := by
  induction texts with
  | nil =>
    cases h
    exact .inl rfl
  | cons text rest ih =>
    unfold firstValue at h
    split at h
    · cases h
    · exact ih h
    · cases h
      exact .inl rfl
    · cases h
      exact .inr rfl

end

section
variable {F : Type} {float : List Char → F} {py : Json.Interpreter F} {v w : Value F}

/-- The text is JSON for the value, with no key twice in an object and no blanks around it. -/
structure ReadsAs (py : Json.Interpreter F) (t : String) (v : Value F) : Prop where
  reads : Json.parse py t.toList = .ok v
  distinct : v.toDict = v
  trimmed : Trimmed t.toList

/-- So it is for a reader with room enough. -/
def Serialises (float : List Char → F) (t : String) (v : Value F) : Prop :=
  ∃ depth, ReadsAs ⟨float, depth⟩ t v

theorem Serialises.readsAs {t : String} (h : Serialises py.float t v)
    (hdepth : v.nesting ≤ py.maxDepth) : ReadsAs py t v := by
  obtain ⟨depth, hreads, hdistinct, htrimmed⟩ := h
  refine ⟨?_, hdistinct, htrimmed⟩
  exact (Json.parse_limit hreads).trans (if_pos hdepth)

/-- No braces, brackets or backticks. -/
def Prose (p : String) : Prop := ∀ c ∈ p.toList, c ∉ ['{', '}', '[', ']', '`']

def Blank (p : String) : Prop := ∀ c ∈ p.toList, isSpace c = true

theorem isSpace_of_isBlank {c : Char} (h : Json.isBlank c = true) : isSpace c = true := by
  unfold Json.isBlank at h
  simp only [Bool.or_eq_true, decide_eq_true_eq] at h
  obtain ((rfl | rfl) | rfl) | rfl := h <;> decide

theorem not_isBlank {c : Char} (h : isSpace c = false) : Json.isBlank c = false := by
  cases hblank : Json.isBlank c with
  | false => rfl
  | true =>
    rw [isSpace_of_isBlank hblank] at h
    cases h

theorem ReadsAs.loads {t : String} (h : ReadsAs py t v) :
    Json.loads py t.toList = .ok v := by
  unfold Json.loads
  rw [h.reads]
  exact congrArg Except.ok h.distinct

theorem loads_kind {c : Char} {rest : List Char} (hc : isSpace c = false)
    (h : Json.loads py (c :: rest) = .ok w) : w.kind = Json.kindOf c := by
  obtain ⟨u, hparse, hdict⟩ := ok_of_bind h
  cases hdict
  rw [Json.toDict_kind]
  exact Json.parse_kind (not_isBlank hc) hparse

theorem kindOf_cases {c : Char} (h : Json.kindOf c ≠ .scalar) :
    c = '[' ∧ Json.kindOf c = .array ∨ c = '{' ∧ Json.kindOf c = .object := by
  unfold Json.kindOf at h ⊢
  split
  · rename_i hc
    exact .inl ⟨hc, rfl⟩
  · rename_i hne
    rw [if_neg hne] at h
    split
    · rename_i hc
      exact .inr ⟨hc, rfl⟩
    · rename_i hc
      rw [if_neg hc] at h
      exact absurd rfl h

theorem ReadsAs.brackets {t : String} (h : ReadsAs py t v) (hv : v.kind ≠ .scalar) :
    t.toList.head? = some '[' ∧ t.toList.getLast? = some ']' ∧ v.kind = .array ∨
      t.toList.head? = some '{' ∧ t.toList.getLast? = some '}' ∧ v.kind = .object := by
  have hreads := h.reads
  have htrimmed := h.trimmed
  generalize t.toList = cs at hreads htrimmed
  cases cs using List.reverseRecOn with
  | nil => cases hreads
  | append_singleton front last =>
    have hlast : isSpace last = false := by
      apply htrimmed.back
      simp
    have hclosing := Json.parse_closing hreads hv (not_isBlank hlast)
    rw [List.getLast?_concat, ← hclosing]
    cases hcs : front ++ [last] with
    | nil => simp at hcs
    | cons c rest =>
      rw [hcs] at hreads htrimmed
      have hkind := Json.parse_kind (not_isBlank (htrimmed.front c rfl)) hreads
      rw [hkind] at hv ⊢
      obtain ⟨rfl, harray⟩ | ⟨rfl, hobject⟩ := kindOf_cases hv
      · rw [harray]
        exact .inl ⟨rfl, rfl, rfl⟩
      · rw [hobject]
        exact .inr ⟨rfl, rfl, rfl⟩

theorem Prose.not_mem {p : String} {c : Char} (h : Prose p)
    (hc : c ∈ ['{', '}', '[', ']', '`']) : c ∉ p.toList := fun hmem => h c hmem hc

theorem kindOf_of_not_bracket {c : Char} (hc : c ≠ '[' ∧ c ≠ '{') : Json.kindOf c = .scalar := by
  unfold Json.kindOf
  rw [if_neg hc.1, if_neg hc.2]

theorem loads_prose {c : Char} {rest : List Char} (hspace : isSpace c = false)
    (hc : c ≠ '[' ∧ c ≠ '{') (hv : v.kind ≠ .scalar) :
    Json.loads py (c :: rest) ≠ .ok v := by
  intro h
  rw [loads_kind hspace h, kindOf_of_not_bracket hc] at hv
  exact hv rfl

theorem dropWhile_cases {p : String} (hp : Prose p) :
    Blank p ∧ p.toList.dropWhile isSpace = [] ∨
      ∃ c rest, p.toList.dropWhile isSpace = c :: rest ∧ isSpace c = false ∧
        c ≠ '[' ∧ c ≠ '{' := by
  cases hdrop : p.toList.dropWhile isSpace with
  | nil => exact .inl ⟨List.dropWhile_eq_nil_iff.mp hdrop, rfl⟩
  | cons c rest =>
    have hmem : c ∈ p.toList := by
      apply (List.dropWhile_suffix isSpace).subset
      rw [hdrop]
      exact List.mem_cons_self
    have hfront : isSpace c = false := by
      apply @head?_dropWhile c p.toList
      rw [hdrop]
      rfl
    refine .inr ⟨c, rest, rfl, hfront, ?_, ?_⟩
    · rintro rfl
      exact hp.not_mem (by decide) hmem
    · rintro rfl
      exact hp.not_mem (by decide) hmem

theorem gives_whole_iff {p t q : String} (hp : Prose p) (ht : ReadsAs py t v)
    (hv : v.kind ≠ .scalar) (hne : t.toList ≠ []) :
    Gives (Json.loads py) (some (strip (p ++ t ++ q))) v ↔ Blank p ∧ Blank q := by
  have hwhole : (strip (p ++ t ++ q)).toList =
      p.toList.dropWhile isSpace ++ (t.toList ++ q.toList.rdropWhile isSpace) := by
    rw [← strip_embedded hne ht.trimmed]
    simp [String.append_assoc]
  unfold Gives
  simp only [Option.some.injEq, exists_eq_left', hwhole]
  constructor
  · intro hloads
    obtain ⟨hblank, hnil⟩ | ⟨c, rest, hcons, hspace, hc⟩ := dropWhile_cases hp
    · refine ⟨hblank, ?_⟩
      rw [hnil, List.nil_append] at hloads
      obtain ⟨u, hparse, -⟩ := ok_of_bind hloads
      have hbehind := Json.blank_of_parse_append ht.reads hv hparse
      have hrdrop : q.toList.rdropWhile isSpace = [] := by
        cases hlast : (q.toList.rdropWhile isSpace).getLast? with
        | none => exact List.getLast?_eq_none_iff.mp hlast
        | some c =>
          have hback : isSpace c = false := by
            rw [List.rdropWhile, List.getLast?_reverse] at hlast
            exact head?_dropWhile hlast
          rw [isSpace_of_isBlank (hbehind c (List.mem_of_getLast? hlast))] at hback
          cases hback
      exact List.rdropWhile_eq_nil_iff.mp hrdrop
    · rw [hcons, List.cons_append] at hloads
      exact absurd hloads (loads_prose hspace hc hv)
  · rintro ⟨hpblank, hqblank⟩
    rw [List.dropWhile_eq_nil_iff.mpr hpblank, List.rdropWhile_eq_nil_iff.mpr hqblank,
      List.nil_append, List.append_nil]
    exact ht.loads

theorem not_gives_fenced {t : String} (ht : ReadsAs py t v) (hv : v.kind ≠ .scalar) :
    ¬ Gives (Json.loads py) (fencedBlock t.toList) v := by
  rintro ⟨s, hfenced, hloads⟩
  rw [fencedBlock_eq] at hfenced
  obtain ⟨⟨before, opened⟩, houter, hfenced⟩ := Option.bind_eq_some_iff.mp hfenced
  obtain ⟨⟨block, behind⟩, hinner, hs⟩ := Option.map_eq_some_iff.mp hfenced
  obtain ⟨label, hlabel, hlabels⟩ := dropLabel_split opened
  obtain ⟨front, back, hstrip, hfront, -⟩ := strip_split block
  dsimp only at hinner hs
  have hsplit := partition_split houter
  rw [hlabel, partition_split hinner, hstrip, hs] at hsplit
  have htext : t.toList = before ++ '`' :: ((['`', '`'] ++ (label ++ front)) ++
      (s.toList ++ (back ++ (fence ++ behind)))) := by
    rw [hsplit]
    simp [fence]
  refine Json.loads_cut_ne ht.reads hv htext ?_ hloads rfl
  intro c hc
  have hsafe : c ∈ ['`', '`', 'j', 's', 'o', 'n'] ∨ c ∈ front := by
    obtain rfl | rfl := hlabels
    · simp only [List.mem_append, List.nil_append] at hc
      exact hc.imp_left fun htick => List.mem_append_left _ htick
    · rw [← List.append_assoc, List.mem_append] at hc
      exact hc
  cases hsafe with
  | inl hletter =>
    have hletters : ∀ d ∈ ['`', '`', 'j', 's', 'o', 'n'], d ≠ '"' ∧ d ≠ '\\' := by decide
    exact hletters c hletter
  | inr hspace =>
    constructor
    · rintro rfl
      exact absurd (hfront _ hspace) (by decide)
    · rintro rfl
      exact absurd (hfront _ hspace) (by decide)

/-- The spans of the answer are those of the value's text. An object is found by its braces, an
array by its brackets, unless its braces give another value first. -/
theorem spans_iff {t : String} {before behind answer : List Char} (ht : ReadsAs py t v)
    (hv : v.kind ≠ .scalar) (hanswer : answer = before ++ (t.toList ++ behind))
    (hbefore : ∀ c ∈ before, c ∉ ['{', '}', '[', ']'])
    (hbehind : ∀ c ∈ behind, c ∉ ['{', '}', '[', ']']) :
    Gives (Json.loads py) (bracketSpan '{' '}' answer) v ∨
        Fails (Json.loads py) (bracketSpan '{' '}' answer) ∧
          Gives (Json.loads py) (bracketSpan '[' ']' answer) v ↔
      v.kind = .object ∨ Fails (Json.loads py) (bracketSpan '{' '}' t.toList) := by
  have hspan {opening closing : Char} (hopening : opening ∈ ['{', '}', '[', ']'])
      (hclosing : closing ∈ ['{', '}', '[', ']']) :
      bracketSpan opening closing answer = bracketSpan opening closing t.toList := by
    rw [hanswer]
    exact bracketSpan_embedded (fun h => hbefore _ h hopening)
      ⟨fun h => hbehind _ h hopening, fun h => hbehind _ h hclosing⟩
  have hself {opening closing : Char} (hhead : t.toList.head? = some opening)
      (hlast : t.toList.getLast? = some closing) :
      Gives (Json.loads py) (bracketSpan opening closing t.toList) v := by
    refine ⟨_, bracketSpan_self hhead hlast, ?_⟩
    rw [String.toList_ofList]
    exact ht.loads
  rw [hspan (by decide) (by decide), hspan (by decide) (by decide)]
  obtain ⟨hhead, hlast, hkind⟩ | ⟨hhead, hlast, hkind⟩ := ht.brackets hv
  · have hnone : ¬ Gives (Json.loads py) (bracketSpan '{' '}' t.toList) v := by
      rintro ⟨s, hs, hloads⟩
      obtain ⟨rest, hrest⟩ := List.head?_eq_some_iff.mp (bracketSpan_spec hs).2
      rw [hrest] at hloads
      have hobject := loads_kind (by decide) hloads
      rw [hkind] at hobject
      cases hobject
    rw [hkind]
    simp [hself hhead hlast, hnone]
  · exact iff_of_true (.inl (hself hhead hlast)) (.inl hkind)

theorem ReadsAs.ne_nil {t : String} (ht : ReadsAs py t v) : t.toList ≠ [] := by
  intro hnil
  have hreads := ht.reads
  rw [hnil] at hreads
  cases hreads

theorem ReadsAs.endsApart {t : String} (ht : ReadsAs py t v) (hv : v.kind ≠ .scalar) :
    EndsApart fence t.toList ∧ EndsApart jsonLabel t.toList := by
  have hlast : t.toList.getLast? = some ']' ∨ t.toList.getLast? = some '}' :=
    (ht.brackets hv).imp (fun h => h.2.1) fun h => h.2.1
  constructor
  all_goals
    intro c hc
    obtain h | h := hlast
    all_goals
      cases hc.symm.trans h
      decide

/-- The value comes back from bare prose exactly when there is none, or when nothing that is tried
before the value's own span is JSON. -/
theorem parseJsonPy_embedded {p t q : String} (hp : Prose p) (hq : Prose q)
    (ht : ReadsAs py t v) (hv : v.kind ≠ .scalar) :
    parseJsonPy (Json.loads py) (p ++ t ++ q) = .ok v ↔
      Blank p ∧ Blank q ∨
        Fails (Json.loads py) (some (strip (p ++ t ++ q))) ∧
          Fails (Json.loads py) (fencedBlock t.toList) ∧
            (v.kind = .object ∨ Fails (Json.loads py) (bracketSpan '{' '}' t.toList)) := by
  have hwhole : (strip (p ++ t ++ q)).toList =
      p.toList.dropWhile isSpace ++ (t.toList ++ q.toList.rdropWhile isSpace) := by
    rw [← strip_embedded ht.ne_nil ht.trimmed]
    simp [String.append_assoc]
  have hbefore : ∀ c ∈ p.toList.dropWhile isSpace, c ∉ ['{', '}', '[', ']', '`'] :=
    fun c hc => hp c ((List.dropWhile_suffix isSpace).subset hc)
  have hbehind : ∀ c ∈ q.toList.rdropWhile isSpace, c ∉ ['{', '}', '[', ']', '`'] :=
    fun c hc => hq c ((List.rdropWhile_prefix isSpace _).subset hc)
  have hbracket {c : Char} (hc : c ∉ ['{', '}', '[', ']', '`']) : c ∉ ['{', '}', '[', ']'] :=
    fun hmem => hc (List.mem_append_left ['`'] hmem)
  have hfenced : fencedBlock (strip (p ++ t ++ q)).toList = fencedBlock t.toList := by
    rw [hwhole]
    exact fencedBlock_embedded (fun h => hbefore _ h (by decide)) (fun h => hbehind _ h (by decide))
      (ht.endsApart hv).1 (ht.endsApart hv).2
  rw [parseJsonPy_iff, gives_whole_iff hp ht hv ht.ne_nil, hfenced,
    spans_iff ht hv hwhole (fun c hc => hbracket (hbefore c hc))
      fun c hc => hbracket (hbehind c hc)]
  simp only [not_gives_fenced ht hv, false_or]

/-- The block that holds a serialisation without fences gives the value; the block that is cut off
in a string of it is not JSON. -/
theorem block_cases {t : String} {before after : List Char} (ht : ReadsAs py t v)
    (hv : v.kind ≠ .scalar) (hbefore : ∀ c ∈ before, isSpace c = true)
    (hafter : ∀ c ∈ after, isSpace c = true) :
    ¬ fence <:+: t.toList ∧
        strip (String.ofList (before ++ fenceless t.toList after)) = t ∨
      fence <:+: t.toList ∧
        Json.loads py (strip (String.ofList (before ++ fenceless t.toList after))).toList =
          .error .decodeError := by
  unfold fenceless
  cases hpart : partition fence t.toList with
  | none =>
    refine .inl ⟨(partition_eq_none_iff (by decide)).mp hpart, ?_⟩
    dsimp only
    rw [← String.toList_inj, strip_embedded ht.ne_nil ht.trimmed,
      List.dropWhile_eq_nil_iff.mpr hbefore, List.rdropWhile_eq_nil_iff.mpr hafter,
      List.nil_append, List.append_nil]
  | some parts =>
    obtain ⟨front, rest⟩ := parts
    have hsplit := partition_split hpart
    refine .inr ⟨⟨front, rest, by rw [hsplit, List.append_assoc]⟩, ?_⟩
    dsimp only
    have hne : front ≠ [] := by
      rintro rfl
      obtain ⟨hhead, -⟩ | ⟨hhead, -⟩ := ht.brackets hv
      · rw [hsplit] at hhead
        cases hhead
      · rw [hsplit] at hhead
        cases hhead
    have hfront : ∀ c, front.head? = some c → isSpace c = false := by
      intro c hc
      apply ht.trimmed.front c
      rw [hsplit, List.head?_append_of_ne_nil _ hne]
      exact hc
    rw [toList_strip, String.toList_ofList, dropWhile_append_of_front hne hfront,
      List.dropWhile_eq_nil_iff.mpr hbefore, List.nil_append]
    have htext : t.toList = front.rdropWhile isSpace ++
        (front.rtakeWhile isSpace ++ '`' :: (['`', '`'] ++ rest)) := by
      rw [← List.append_assoc, List.rdropWhile_append_rtakeWhile, hsplit]
      rfl
    apply Json.loads_cut_decodeError ht.reads htext
    rintro c hc rfl
    exact absurd (List.mem_rtakeWhile_imp hc) (by decide)

def inFence (p label before t after q : String) : String :=
  p ++ "```" ++ label ++ before ++ t ++ after ++ "```" ++ q

section
variable {p t q label before after : String}

theorem isJsonLabel (hlabel : label = "" ∨ label = "json") :
    label.toList = [] ∨ label.toList = jsonLabel := by
  obtain rfl | rfl := hlabel
  · exact .inl rfl
  · exact .inr (by decide)

theorem strip_inFence : (strip (inFence p label before t after q)).toList =
    p.toList.dropWhile isSpace ++
      (wrap label.toList before.toList t.toList after.toList ++ q.toList.rdropWhile isSpace) := by
  have hends := wrap_ends label.toList before.toList t.toList after.toList
  have htrimmed : Trimmed (wrap label.toList before.toList t.toList after.toList) := by
    constructor
    · intro c hc
      cases hc.symm.trans hends.1
      decide
    · intro c hc
      cases hc.symm.trans hends.2
      decide
  have hfence : "```".toList = fence := by decide
  have heq : inFence p label before t after q = String.ofList (p.toList ++
      (wrap label.toList before.toList t.toList after.toList ++ q.toList)) := by
    rw [← String.toList_inj, String.toList_ofList]
    simp only [inFence, String.toList_append, hfence, wrap, List.append_assoc]
  rw [heq, strip_embedded (List.ne_nil_of_mem (List.mem_of_head? hends.1)) htrimmed]

theorem not_gives_inFence (hp : Prose p) (hv : v.kind ≠ .scalar) :
    ¬ Gives (Json.loads py) (some (strip (inFence p label before t after q))) v := by
  rintro ⟨s, heq, hloads⟩
  rw [← Option.some_inj.mp heq, strip_inFence] at hloads
  obtain ⟨-, hnil⟩ | ⟨c, rest, hcons, hspace, hc⟩ := dropWhile_cases hp
  · obtain ⟨rest, hrest⟩ := List.head?_eq_some_iff.mp
      (wrap_ends label.toList before.toList t.toList after.toList).1
    rw [hnil, hrest] at hloads
    exact loads_prose (by decide) (by decide) hv hloads
  · rw [hcons] at hloads
    exact loads_prose hspace hc hv hloads

theorem fencedBlock_inFence (hp : Prose p) (ht : ReadsAs py t v) (hv : v.kind ≠ .scalar)
    (hlabel : label = "" ∨ label = "json") (hbefore : Blank before) (hafter : Blank after) :
    fencedBlock (strip (inFence p label before t after q)).toList =
      some (strip (String.ofList (before.toList ++ fenceless t.toList after.toList))) := by
  have htick : '`' ∉ p.toList.dropWhile isSpace :=
    fun hmem => hp.not_mem (by decide) ((List.dropWhile_suffix isSpace).subset hmem)
  have hlabels := isJsonLabel hlabel
  rw [strip_inFence]
  obtain ⟨hhead, -⟩ | ⟨hhead, -⟩ := ht.brackets hv
  · exact fencedBlock_wrapped htick hlabels hbefore hafter (ht.endsApart hv).1 hhead (by decide)
  · exact fencedBlock_wrapped htick hlabels hbefore hafter (ht.endsApart hv).1 hhead (by decide)

theorem not_bracket_of_isSpace {c : Char} (hc : isSpace c = true) : c ∉ ['{', '}', '[', ']'] := by
  intro hmem
  have hnot : ∀ d ∈ ['{', '}', '[', ']'], isSpace d = false := by decide
  rw [hnot c hmem] at hc
  cases hc

theorem Prose.not_bracket {c : Char} (hp : Prose p) (hc : c ∈ p.toList) :
    c ∉ ['{', '}', '[', ']'] := fun hmem => hp c hc (List.mem_append_left ['`'] hmem)

theorem spans_inFence (hp : Prose p) (hq : Prose q) (ht : ReadsAs py t v) (hv : v.kind ≠ .scalar)
    (hlabel : label = "" ∨ label = "json") (hbefore : Blank before) (hafter : Blank after) :
    Gives (Json.loads py)
        (bracketSpan '{' '}' (strip (inFence p label before t after q)).toList) v ∨
      Fails (Json.loads py)
          (bracketSpan '{' '}' (strip (inFence p label before t after q)).toList) ∧
        Gives (Json.loads py)
          (bracketSpan '[' ']' (strip (inFence p label before t after q)).toList) v ↔
      v.kind = .object ∨ Fails (Json.loads py) (bracketSpan '{' '}' t.toList) := by
  have hsplit : (strip (inFence p label before t after q)).toList =
      (p.toList.dropWhile isSpace ++ (fence ++ (label.toList ++ before.toList))) ++
        (t.toList ++ (after.toList ++ (fence ++ q.toList.rdropWhile isSpace))) := by
    rw [strip_inFence]
    simp only [wrap, List.append_assoc]
  have hletters : ∀ c ∈ fence ++ label.toList, c ∉ ['{', '}', '[', ']'] := by
    obtain h | h := isJsonLabel hlabel
    all_goals
      rw [h]
      decide
  apply spans_iff ht hv hsplit
  · intro c hc
    rw [← List.append_assoc fence, List.mem_append, List.mem_append] at hc
    obtain hc | hc | hc := hc
    · exact hp.not_bracket ((List.dropWhile_suffix isSpace).subset hc)
    · exact hletters c hc
    · exact not_bracket_of_isSpace (hbefore c hc)
  · intro c hc
    rw [List.mem_append, List.mem_append] at hc
    obtain hc | hc | hc := hc
    · exact not_bracket_of_isSpace (hafter c hc)
    · exact hletters c (List.mem_append_left _ hc)
    · exact hq.not_bracket ((List.rdropWhile_prefix isSpace _).subset hc)

/-- The value comes back from a fence exactly when the whole answer is no JSON, and the fence is
not cut off in a string of an array whose braces give another value. -/
theorem parseJsonPy_inFence (hp : Prose p) (hq : Prose q) (ht : ReadsAs py t v)
    (hv : v.kind ≠ .scalar) (hlabel : label = "" ∨ label = "json") (hbefore : Blank before)
    (hafter : Blank after) :
    parseJsonPy (Json.loads py) (inFence p label before t after q) = .ok v ↔
      Fails (Json.loads py) (some (strip (inFence p label before t after q))) ∧
        (¬ fence <:+: t.toList ∨ v.kind = .object ∨
          Fails (Json.loads py) (bracketSpan '{' '}' t.toList)) := by
  rw [parseJsonPy_iff, spans_inFence hp hq ht hv hlabel hbefore hafter,
    fencedBlock_inFence hp ht hv hlabel hbefore hafter]
  have hnot := @not_gives_inFence F py v p t q label before after hp hv
  obtain ⟨hnone, hblock⟩ | ⟨hfence, hblock⟩ := block_cases ht hv hbefore hafter
  · rw [hblock]
    have hgives : Gives (Json.loads py) (some t) v := ⟨t, rfl, ht.loads⟩
    simp [hnot, hgives, hnone]
  · generalize strip (String.ofList (before.toList ++ fenceless t.toList after.toList)) = inner
      at hblock
    have hnone : ¬ Gives (Json.loads py) (some inner) v := by
      rintro ⟨s, heq, hloads⟩
      rw [← Option.some_inj.mp heq, hblock] at hloads
      cases hloads
    have hfails : Fails (Json.loads py) (some inner) := by
      intro s heq
      rw [← Option.some_inj.mp heq, hblock]
    simp [hnot, hfails, hnone, hfence]

end

theorem nesting_le_of_parseJsonPy {text : String}
    (h : parseJsonPy (Json.loads py) text = .ok v) : v.nesting ≤ py.maxDepth := by
  obtain ⟨s, -, hloads⟩ | ⟨-, ⟨s, -, hloads⟩ | ⟨-, ⟨s, -, hloads⟩ | ⟨-, s, -, hloads⟩⟩⟩ :=
    parseJsonPy_iff.mp h
  all_goals exact Json.nesting_le_of_loads hloads

/-- There is JSON in an answer, for a reader with room enough: the answer itself, what its first
fences hold, or an object or an array that is a part of it. -/
def HoldsJson (float : List Char → F) (text : String) : Prop :=
  ∃ depth, (∃ v, Json.loads ⟨float, depth⟩ (strip text).toList = .ok v) ∨
    (∃ block v, fencedBlock (strip text).toList = some block ∧
      Json.loads ⟨float, depth⟩ block.toList = .ok v) ∨
    ∃ part v, part <:+: text.toList ∧ Json.loads ⟨float, depth⟩ part = .ok v ∧ v.kind ≠ .scalar

theorem strip_part (text : String) : (strip text).toList <:+: text.toList := by
  obtain ⟨front, back, hsplit, -⟩ := strip_split text.toList
  rw [String.ofList_toList] at hsplit
  exact ⟨front, back, by rw [List.append_assoc, ← hsplit]⟩

theorem span_holds {text s : String} {opening closing : Char}
    (hspan : bracketSpan opening closing (strip text).toList = some s)
    (hopening : opening = '[' ∨ opening = '{') (h : Json.loads py s.toList = .ok v) :
    HoldsJson py.float text := by
  obtain ⟨hpart, hhead⟩ := bracketSpan_spec hspan
  refine ⟨py.maxDepth, .inr (.inr ⟨_, v, hpart.trans (strip_part text), h, ?_⟩)⟩
  obtain ⟨rest, hrest⟩ := List.head?_eq_some_iff.mp hhead
  rw [hrest] at h
  obtain rfl | rfl := hopening
  · rw [loads_kind (by decide) h]
    decide
  · rw [loads_kind (by decide) h]
    decide

theorem not_parseJsonPy {text : String} (h : ¬ HoldsJson py.float text) :
    parseJsonPy (Json.loads py) text ≠ .ok v := by
  intro hok
  obtain ⟨s, hs, hloads⟩ | ⟨-, ⟨s, hs, hloads⟩ | ⟨-, ⟨s, hs, hloads⟩ | ⟨-, s, hs, hloads⟩⟩⟩ :=
    parseJsonPy_iff.mp hok
  · cases hs
    exact h ⟨py.maxDepth, .inl ⟨v, hloads⟩⟩
  · exact h ⟨py.maxDepth, .inr (.inl ⟨s, v, hs, hloads⟩)⟩
  · exact h (span_holds hs (.inr rfl) hloads)
  · exact h (span_holds hs (.inl rfl) hloads)

theorem parseJsonPy_valueError_iff {text : String} (h : ¬ HoldsJson py.float text) :
    parseJsonPy (Json.loads py) text = .error .valueError ↔ ¬ RunsDeep (Json.loads py) text := by
  rw [← parseJsonPy_recursionError_iff]
  cases hresult : parseJsonPy (Json.loads py) text with
  | ok v => exact absurd hresult (not_parseJsonPy h)
  | error e =>
    obtain rfl | rfl := firstValue_error hresult
    · exact iff_of_true rfl (by rintro ⟨⟩)
    · exact iff_of_false (by rintro ⟨⟩) fun hne => hne rfl

/-- When `parse_json` inverts writing the text of an object or an array into prose, bare or in a
fence, and when an answer without JSON raises a `ValueError`. -/
theorem parseJson_inverts_iff (py : Json.Interpreter F) (p t q : String) (v : Value F)
    (hp : Prose p) (hq : Prose q) (ht : Serialises py.float t v) (hv : v.kind ≠ .scalar) :
    (parseJsonPy (Json.loads py) (p ++ t ++ q) = .ok v ↔ v.nesting ≤ py.maxDepth ∧
      (Blank p ∧ Blank q ∨
        Fails (Json.loads py) (some (strip (p ++ t ++ q))) ∧
          Fails (Json.loads py) (fencedBlock t.toList) ∧
            (v.kind = .object ∨ Fails (Json.loads py) (bracketSpan '{' '}' t.toList)))) ∧
    (∀ label before after : String, (label = "" ∨ label = "json") → Blank before → Blank after →
      (parseJsonPy (Json.loads py)
          (p ++ "```" ++ label ++ before ++ t ++ after ++ "```" ++ q) = .ok v ↔
        v.nesting ≤ py.maxDepth ∧
          Fails (Json.loads py)
            (some (strip (p ++ "```" ++ label ++ before ++ t ++ after ++ "```" ++ q))) ∧
          (¬ fence <:+: t.toList ∨ v.kind = .object ∨
            Fails (Json.loads py) (bracketSpan '{' '}' t.toList)))) ∧
    ∀ text, ¬ HoldsJson py.float text →
      (parseJsonPy (Json.loads py) text = .error .valueError ↔
        ¬ RunsDeep (Json.loads py) text) := by
  refine ⟨?_, fun label before after hlabel hbefore hafter => ?_,
    fun text h => parseJsonPy_valueError_iff h⟩
  · constructor
    · intro h
      have hdepth := nesting_le_of_parseJsonPy h
      exact ⟨hdepth, (parseJsonPy_embedded hp hq (ht.readsAs hdepth) hv).mp h⟩
    · rintro ⟨hdepth, h⟩
      exact (parseJsonPy_embedded hp hq (ht.readsAs hdepth) hv).mpr h
  · constructor
    · intro h
      have hdepth := nesting_le_of_parseJsonPy h
      exact ⟨hdepth,
        (parseJsonPy_inFence hp hq (ht.readsAs hdepth) hv hlabel hbefore hafter).mp h⟩
    · rintro ⟨hdepth, h⟩
      exact (parseJsonPy_inFence hp hq (ht.readsAs hdepth) hv hlabel hbefore hafter).mpr h

end

/-- An object with one member. -/
def member : Value (List Char) := .object [(Posix.text "a", .int 1)]

/-- The interpreter's own recursion limit, with numerals for floats. -/
def thousand : Json.Interpreter (List Char) := ⟨id, 1000⟩

theorem readsAs_member : ReadsAs thousand "\x7b\"a\": 1\x7d" member := by
  have hchars : "\x7b\"a\": 1\x7d".toList = ['{', '"', 'a', '"', ':', ' ', '1', '}'] := by decide
  constructor
  · rw [hchars]
    rfl
  · rfl
  · rw [hchars]
    constructor
    · rintro c ⟨⟩
      decide
    · rintro c ⟨⟩
      decide

theorem prose_of_all {p : String}
    (h : p.toList.all (fun c => c ∉ ['{', '}', '[', ']', '`']) = true) : Prose p :=
  fun c hc => of_decide_eq_true (List.all_eq_true.mp h c hc)

theorem parseJson_inverts_iff_member :
    parseJsonPy (Json.loads thousand) ("See " ++ "\x7b\"a\": 1\x7d" ++ ".") = .ok member := by
  have hp : Prose "See " := prose_of_all (by decide)
  have hq : Prose "." := prose_of_all (by decide)
  have hv : member.kind ≠ .scalar := by decide
  apply (parseJson_inverts_iff thousand "See " "\x7b\"a\": 1\x7d" "." member hp hq
    ⟨1000, readsAs_member⟩ hv).1.mpr
  refine ⟨by decide, ?_⟩
  have hwhole : (strip ("See " ++ "\x7b\"a\": 1\x7d" ++ ".")).toList =
      ['S', 'e', 'e', ' ', '{', '"', 'a', '"', ':', ' ', '1', '}', '.'] := by decide
  have hfenced : fencedBlock "\x7b\"a\": 1\x7d".toList = none := by decide
  refine .inr ⟨?_, ?_, .inl rfl⟩
  · rintro s ⟨⟩
    rw [hwhole]
    rfl
  · rw [hfenced]
    rintro s ⟨⟩

/-- An array of one object comes back as the object, whose braces are tried first. -/
theorem parseJson_unwraps_array :
    Prose "Findings: " ∧ Prose " done" ∧ Serialises id "[\x7b\"a\": 1\x7d]" (.array [member]) ∧
      parseJsonPy (Json.loads thousand) ("Findings: " ++ "[\x7b\"a\": 1\x7d]" ++ " done") =
        .ok member ∧
      parseJsonPy (Json.loads thousand) ("Findings: " ++ "[\x7b\"a\": 1\x7d]" ++ " done") ≠
        .ok (.array [member]) := by
  have hchars : "[\x7b\"a\": 1\x7d]".toList =
      ['[', '{', '"', 'a', '"', ':', ' ', '1', '}', ']'] := by decide
  have hserialises : Serialises id "[\x7b\"a\": 1\x7d]" (.array [member]) := by
    refine ⟨1000, ?_⟩
    constructor
    · rw [hchars]
      rfl
    · rfl
    · rw [hchars]
      constructor
      · rintro c ⟨⟩
        decide
      · rintro c ⟨⟩
        decide
  have hanswer : strip ("Findings: " ++ "[\x7b\"a\": 1\x7d]" ++ " done") =
      "Findings: [\x7b\"a\": 1\x7d] done" := by decide
  have hfirst : Json.loads thousand "Findings: [\x7b\"a\": 1\x7d] done".toList =
      .error .decodeError := by
    have hcons : "Findings: [\x7b\"a\": 1\x7d] done".toList =
        'F' :: "indings: [\x7b\"a\": 1\x7d] done".toList := by decide
    rw [hcons]
    rfl
  have hfenced : fencedBlock "Findings: [\x7b\"a\": 1\x7d] done".toList = none := by decide
  have hspan : bracketSpan '{' '}' "Findings: [\x7b\"a\": 1\x7d] done".toList =
      some "\x7b\"a\": 1\x7d" := by decide
  have hmember : parseJsonPy (Json.loads thousand)
      ("Findings: " ++ "[\x7b\"a\": 1\x7d]" ++ " done") = .ok member := by
    rw [parseJsonPy_iff, hanswer, hfenced, hspan]
    refine .inr ⟨?_, .inr ⟨?_, .inl ⟨_, rfl, readsAs_member.loads⟩⟩⟩
    · rintro s ⟨⟩
      exact hfirst
    · rintro s ⟨⟩
  refine ⟨prose_of_all (by decide), prose_of_all (by decide), hserialises, hmember, ?_⟩
  rw [hmember]
  rintro ⟨⟩

end AutoPR.Pipeline
