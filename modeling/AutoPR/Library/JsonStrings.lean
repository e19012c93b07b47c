import AutoPR.Library.JsonRuns
import Mathlib.Tactic.Tauto

/-! Strings in a JSON text. Two readers of one text that differ in whether they are inside a
string go on to differ until the text ends, so that a text cut out of a string has none of its
characters in a string of its own. -/
namespace AutoPR.Json
open Posix (CodePoint Text code)
open Python (ok_of_bind)

variable {F : Type} {py : Interpreter F}

def State.isString : State F → Bool
  | .string _ _ _ => true
  | _ => false

/-- Outside of strings there is no backslash and no backtick, and only a quote opens one. -/
def Outside (c : Char) (t : State F) : Prop :=
  c = '"' ∧ (∃ target, t = .string target .plain []) ∨
    c ≠ '"' ∧ c ≠ '\\' ∧ c ≠ '`' ∧ t.isString = false

theorem Outside.of_not_special {c : Char} {t : State F} (hc : isSpecial c = false)
    (ht : t.isString = false) : Outside c t := by
  have hnot : ∀ d ∈ specials, c ≠ d := by
    rintro d hd rfl
    exact of_decide_eq_false hc hd
  exact .inr ⟨hnot _ (by decide), hnot _ (by decide), hnot _ (by decide), ht⟩

theorem Outside.of_mem {c : Char} {t : State F} (hc : c ∈ ['[', ']', '{', '}', ',', ':'])
    (ht : t.isString = false) : Outside c t := by
  have hne : c ≠ '"' ∧ c ≠ '\\' ∧ c ≠ '`' := by
    revert c
    decide
  exact .inr ⟨hne.1, hne.2.1, hne.2.2, ht⟩

theorem isSpecial_of_isBlank {c : Char} (h : isBlank c = true) : isSpecial c = false := by
  have hnot : ∀ d ∈ specials, isBlank d = false := by decide
  unfold isSpecial
  rw [decide_eq_false_iff_not]
  intro hmem
  rw [hnot c hmem] at h
  cases h

theorem Starts.outside {stack : List (Frame F)} {c : Char} {t : State F} (h : Starts stack c t) :
    Outside c t := by
  cases h with
  | string => exact .inl ⟨rfl, _, rfl⟩
  | array | object => exact .of_mem (by decide) rfl
  | numeral part hc | word word hc => exact .of_not_special hc rfl

theorem Ends.outside {v : Value F} {stack : List (Frame F)} {c : Char} {t : State F}
    (h : Ends v stack c t) : Outside c t := by
  cases h with
  | blank hc => exact .of_not_special (isSpecial_of_isBlank hc) rfl
  | nextItem | closeArray | nextMember | closeObject => exact .of_mem (by decide) rfl

theorem Moves.outside {s : State F} {c : Char} {t : State F} (h : Moves s c t)
    (hs : s.isString = false) : Outside c t := by
  cases h with
  | value hc | firstItem hc | firstKey hc | nextKey hc | colon hc =>
    exact .of_not_special (isSpecial_of_isBlank hc) rfl
  | start h | startItem h => exact h.outside
  | noItem | noMember | member => exact .of_mem (by decide) rfl
  | startFirstKey | startKey => exact .inl ⟨rfl, _, rfl⟩
  | string => cases hs
  | numeral hc | word hc | wordEnd hc => exact .of_not_special hc rfl
  | minusInfinity => exact .of_not_special (by decide) rfl
  | numeralEnd _ h | after h => exact h.outside

theorem Target.close_outside (target : Target F) (s : Text) :
    (target.close s).isString = false := by
  cases target <;> rfl

theorem plain_moves {target : Target F} {read : Text} {c : Char} {t : State F}
    (h : Moves (.string target .plain read) c t) (hc : c ≠ '\\') :
    c = '"' ∧ t = target.close read.reverse ∨
      c ≠ '"' ∧ t = .string target .plain (push (code c) read) := by
  cases h with
  | string h =>
    dsimp only [stringStep] at h
    split_ifs at h with hquote hcontrol
    · cases h
      exact .inl ⟨hquote, rfl⟩
    · cases h
      exact .inr ⟨hquote, rfl⟩

theorem backtick_moves {s t : State F} (h : Moves s '`' t) :
    ∃ target read, s = .string target .plain read ∧
      t = .string target .plain (push (code '`') read) := by
  cases hs : s.isString with
  | false =>
    obtain ⟨hquote, -⟩ | ⟨-, -, hne, -⟩ := h.outside hs
    · cases hquote
    · exact absurd rfl hne
  | true =>
    cases s with
    | string target escape read =>
      cases escape with
      | plain =>
        obtain ⟨hquote, -⟩ | ⟨-, heq⟩ := plain_moves h (by decide)
        · cases hquote
        · exact ⟨target, read, rfl, heq⟩
      | backslash =>
        cases h with
        | string h => cases h
      | unit digits n =>
        cases h with
        | string h => cases h
    | _ => cases hs

inductive Mentions (x : CodePoint) : Value F → Prop
  | str {s : Text} (h : x ∈ s) : Mentions x (.str s)
  | item {items : List (Value F)} {v : Value F} (hmem : v ∈ items) (h : Mentions x v) :
      Mentions x (.array items)
  | key {members : List (Text × Value F)} {m : Text × Value F} (hmem : m ∈ members)
      (h : x ∈ m.1) : Mentions x (.object members)
  | member {members : List (Text × Value F)} {m : Text × Value F} (hmem : m ∈ members)
      (h : Mentions x m.2) : Mentions x (.object members)

def ItemsMention (x : CodePoint) (items : List (Value F)) : Prop := ∃ v ∈ items, Mentions x v

def MembersMention (x : CodePoint) (members : List (Text × Value F)) : Prop :=
  ∃ m ∈ members, x ∈ m.1 ∨ Mentions x m.2

def Frame.Mentions (x : CodePoint) : Frame F → Prop
  | .item before => ItemsMention x before
  | .member before key => x ∈ key ∨ MembersMention x before

def StackMentions (x : CodePoint) : List (Frame F) → Prop
  | [] => False
  | frame :: stack => frame.Mentions x ∨ StackMentions x stack

def Target.Mentions (x : CodePoint) : Target F → Prop
  | .value stack => StackMentions x stack
  | .key before stack => MembersMention x before ∨ StackMentions x stack

def State.Mentions (x : CodePoint) : State F → Prop
  | .value stack | .firstItem stack | .firstKey stack | .numeral _ _ stack | .word _ _ stack =>
      StackMentions x stack
  | .nextKey before stack => MembersMention x before ∨ StackMentions x stack
  | .colon before key stack => x ∈ key ∨ MembersMention x before ∨ StackMentions x stack
  | .string target _ read => x ∈ read ∨ target.Mentions x
  | .after v stack => Json.Mentions x v ∨ StackMentions x stack

section
variable {x : CodePoint}

@[simp] theorem mentions_str {s : Text} : Mentions x (.str s : Value F) ↔ x ∈ s := by
  constructor
  · rintro (h | _)
    exact h
  · exact .str

@[simp] theorem mentions_array {items : List (Value F)} :
    Mentions x (.array items) ↔ ItemsMention x items := by
  constructor
  · rintro (_ | ⟨hmem, h⟩)
    exact ⟨_, hmem, h⟩
  · rintro ⟨v, hmem, h⟩
    exact .item hmem h

@[simp] theorem mentions_object {members : List (Text × Value F)} :
    Mentions x (.object members) ↔ MembersMention x members := by
  constructor
  · rintro (_ | _ | ⟨hmem, h⟩ | ⟨hmem, h⟩)
    · exact ⟨_, hmem, .inl h⟩
    · exact ⟨_, hmem, .inr h⟩
  · rintro ⟨m, hmem, h | h⟩
    · exact .key hmem h
    · exact .member hmem h

@[simp] theorem not_mentions_bare {v : Value F} (h : v.isBare = true) : ¬ Mentions x v := by
  rintro (_ | _ | _ | _) <;> cases h

@[simp] theorem itemsMention_nil : ItemsMention x ([] : List (Value F)) ↔ False := by
  simp [ItemsMention]

@[simp] theorem itemsMention_cons {v : Value F} {items : List (Value F)} :
    ItemsMention x (v :: items) ↔ Mentions x v ∨ ItemsMention x items := by
  simp [ItemsMention]

@[simp] theorem itemsMention_reverse {items : List (Value F)} :
    ItemsMention x items.reverse ↔ ItemsMention x items := by
  simp [ItemsMention]

@[simp] theorem membersMention_nil : MembersMention x ([] : List (Text × Value F)) ↔ False := by
  simp [MembersMention]

@[simp] theorem membersMention_cons {m : Text × Value F} {members : List (Text × Value F)} :
    MembersMention x (m :: members) ↔ (x ∈ m.1 ∨ Mentions x m.2) ∨ MembersMention x members := by
  simp [MembersMention]

@[simp] theorem membersMention_reverse {members : List (Text × Value F)} :
    MembersMention x members.reverse ↔ MembersMention x members := by
  simp [MembersMention]

theorem Starts.mentions {stack : List (Frame F)} {c : Char} {t : State F} (h : Starts stack c t) :
    t.Mentions x ↔ StackMentions x stack := by
  cases h <;> simp [State.Mentions, Target.Mentions]

theorem Ends.mentions {v : Value F} {stack : List (Frame F)} {c : Char} {t : State F}
    (h : Ends v stack c t) : t.Mentions x ↔ Mentions x v ∨ StackMentions x stack := by
  cases h with
  | blank => exact Iff.rfl
  | nextItem =>
    simp only [State.Mentions, StackMentions, Frame.Mentions, itemsMention_cons]
    exact or_assoc
  | closeArray =>
    simp only [State.Mentions, StackMentions, Frame.Mentions, mentions_array,
      itemsMention_reverse, itemsMention_cons]
    exact or_assoc
  | nextMember =>
    simp only [State.Mentions, StackMentions, Frame.Mentions, membersMention_cons]
    tauto
  | closeObject =>
    simp only [State.Mentions, StackMentions, Frame.Mentions, mentions_object,
      membersMention_reverse, membersMention_cons]
    tauto

theorem Target.mentions_close (target : Target F) (s : Text) :
    (target.close s).Mentions x ↔ x ∈ s ∨ target.Mentions x := by
  cases target <;> simp [Target.close, State.Mentions, Target.Mentions]

theorem Moves.mentions {s : State F} {c : Char} {t : State F} (h : Moves s c t)
    (hs : s.isString = false) : t.Mentions x ↔ s.Mentions x := by
  cases h with
  | value | firstItem | firstKey | nextKey | colon | numeral | minusInfinity | word => exact Iff.rfl
  | start h => exact h.mentions
  | startItem h =>
    rw [h.mentions]
    simp [State.Mentions, StackMentions, Frame.Mentions]
  | noItem | noMember | startFirstKey | startKey =>
    simp [State.Mentions, Target.Mentions]
  | member => exact or_assoc
  | string => cases hs
  | numeralEnd hv h =>
    rw [h.mentions]
    simp [State.Mentions, not_mentions_bare hv]
  | wordEnd hc hv => simp [State.Mentions, not_mentions_bare hv]
  | after h => exact h.mentions

end

theorem push_code (c : Char) (read : Text) : push (code c) read = code c :: read := by
  have hlow : isLow (code c) = false := by
    have hvalid := c.valid
    unfold UInt32.isValidChar Nat.isValidChar at hvalid
    unfold isLow code
    rw [Bool.and_eq_false_iff, decide_eq_false_iff_not, decide_eq_false_iff_not]
    change ¬ 0xdc00 ≤ c.val.toNat ∨ ¬ c.val.toNat < 0xe000
    omega
  cases read with
  | nil => rfl
  | cons d read =>
    dsimp only [push]
    rw [hlow, Bool.and_false]
    rfl

theorem mem_push {x d : CodePoint} {read : Text} (hx : isHigh x = false) (h : x ∈ read) :
    x ∈ push d read := by
  cases read with
  | nil => cases h
  | cons e read =>
    dsimp only [push]
    split
    · rename_i hpair
      cases h with
      | head =>
        rw [hx] at hpair
        cases hpair
      | tail _ h => exact List.mem_cons_of_mem _ h
    · exact List.mem_cons_of_mem _ h

theorem code_injective {c d : Char} (h : code c = code d) : c = d := by
  have hval : c.toNat = d.toNat := congrArg (fun x : CodePoint => x.val) h
  exact Char.toNat_inj.mp hval

section
variable {x : CodePoint} {s t u : State F} {text : List Char}

theorem Moves.mentions_of {c : Char} (hx : isHigh x = false) (h : Moves s c t)
    (hs : s.Mentions x) : t.Mentions x := by
  cases hstring : s.isString with
  | false => exact (h.mentions hstring).mpr hs
  | true =>
    cases h with
    | @string target _ read _ _ h =>
      obtain ⟨-, -, rfl⟩ | ⟨next, rfl | ⟨d, rfl⟩⟩ := stringStep_cases h
      · rw [target.mentions_close, List.mem_reverse]
        exact hs
      · exact hs
      · exact hs.imp_left (mem_push hx)
    | _ => cases hstring

theorem mentions_run (hx : isHigh x = false) (h : run py s text = .ok t)
    (hs : s.Mentions x) : t.Mentions x := by
  induction text generalizing s with
  | nil =>
    cases h
    exact hs
  | cons c text ih =>
    obtain ⟨m, hmove, hrun⟩ := ok_run_cons h
    exact ih hrun (hmove.mentions_of hx hs)

def State.InString (s : State F) : Prop := ∃ target read, s = .string target .plain read

theorem run_inString (h : run py s text = .ok t) (hs : s.InString)
    (htext : ∀ c ∈ text, c ≠ '"' ∧ c ≠ '\\') : t.InString := by
  induction text generalizing s with
  | nil =>
    cases h
    exact hs
  | cons c text ih =>
    obtain ⟨m, hmove, hrun⟩ := ok_run_cons h
    obtain ⟨hquote, hbackslash⟩ := htext c List.mem_cons_self
    refine ih hrun ?_ fun d hd => htext d (List.mem_cons_of_mem c hd)
    obtain ⟨target, read, rfl⟩ := hs
    obtain ⟨heq, -⟩ | ⟨-, heq⟩ := plain_moves hmove hbackslash
    · exact absurd heq hquote
    · exact ⟨target, _, heq⟩

/-- One of two readers of the same text is in a string, and the other is not. -/
def OutOfStep (s t : State F) : Prop :=
  s.InString ∧ t.isString = false ∨ s.isString = false ∧ t.InString

theorem OutOfStep.step {s' t' : State F} {c : Char} (h : OutOfStep s t) (hs : Moves s c s')
    (ht : Moves t c t') : OutOfStep s' t' ∧ (t'.Mentions (code '`') → t.Mentions (code '`')) := by
  obtain ⟨⟨target, read, rfl⟩, hout⟩ | ⟨hout, target, read, rfl⟩ := h
  · refine ⟨?_, (ht.mentions hout).mp⟩
    obtain ⟨rfl, next, rfl⟩ | ⟨hquote, hbackslash, -, hstill⟩ := ht.outside hout
    · obtain ⟨-, rfl⟩ | ⟨hne, -⟩ := plain_moves hs (by decide)
      · exact .inr ⟨target.close_outside _, next, [], rfl⟩
      · exact absurd rfl hne
    · obtain ⟨heq, -⟩ | ⟨-, rfl⟩ := plain_moves hs hbackslash
      · exact absurd heq hquote
      · exact .inl ⟨⟨target, _, rfl⟩, hstill⟩
  · obtain ⟨rfl, next, rfl⟩ | ⟨hquote, hbackslash, htick, hstill⟩ := hs.outside hout
    · obtain ⟨-, rfl⟩ | ⟨hne, -⟩ := plain_moves ht (by decide)
      · refine ⟨.inl ⟨⟨next, [], rfl⟩, target.close_outside _⟩, fun hmentions => ?_⟩
        rw [target.mentions_close, List.mem_reverse] at hmentions
        exact hmentions
      · exact absurd rfl hne
    · obtain ⟨heq, -⟩ | ⟨-, rfl⟩ := plain_moves ht hbackslash
      · exact absurd heq hquote
      · refine ⟨.inr ⟨hstill, target, _, rfl⟩, fun hmentions => ?_⟩
        rw [push_code] at hmentions
        exact hmentions.imp_left fun hmem => (List.mem_cons.mp hmem).resolve_left fun heq =>
          htick (code_injective heq).symm

theorem OutOfStep.run {s' t' : State F} (h : OutOfStep s t) (hs : run py s text = .ok s')
    (ht : run py t text = .ok t') : t'.Mentions (code '`') → t.Mentions (code '`') := by
  induction text generalizing s t with
  | nil =>
    cases ht
    exact id
  | cons c text ih =>
    obtain ⟨m, hmove, hs⟩ := ok_run_cons hs
    obtain ⟨n, hmove', ht⟩ := ok_run_cons ht
    obtain ⟨hnext, hmentions⟩ := h.step hmove hmove'
    exact fun hlast => hmentions (ih hnext hs ht hlast)

theorem run_outside (h : run py s text = .ok t) (hs : s.isString = false)
    (htext : ∀ c ∈ text, c ≠ '"') : t.isString = false := by
  induction text generalizing s with
  | nil =>
    cases h
    exact hs
  | cons c text ih =>
    obtain ⟨m, hmove, hrun⟩ := ok_run_cons h
    have hne := htext c List.mem_cons_self
    obtain ⟨hquote, -⟩ | ⟨-, -, -, hm⟩ := hmove.outside hs
    · exact absurd hquote hne
    · exact ih hrun hm fun d hd => htext d (List.mem_cons_of_mem c hd)

end

theorem mem_setMember {key : Text} {v : Value F} {dict : List (Text × Value F)}
    {m : Text × Value F} (h : m ∈ setMember key v dict) :
    (m.1 = key ∨ ∃ m' ∈ dict, m.1 = m'.1) ∧ (m.2 = v ∨ ∃ m' ∈ dict, m.2 = m'.2) := by
  induction dict with
  | nil =>
    cases List.mem_singleton.mp h
    exact ⟨.inl rfl, .inl rfl⟩
  | cons first dict ih =>
    obtain ⟨k, u⟩ := first
    unfold setMember at h
    split at h
    · cases h with
      | head => exact ⟨.inr ⟨(k, u), List.mem_cons_self, rfl⟩, .inl rfl⟩
      | tail _ h =>
        have hmem := List.mem_cons_of_mem (k, u) h
        exact ⟨.inr ⟨m, hmem, rfl⟩, .inr ⟨m, hmem, rfl⟩⟩
    · cases h with
      | head => exact ⟨.inr ⟨_, List.mem_cons_self, rfl⟩, .inr ⟨_, List.mem_cons_self, rfl⟩⟩
      | tail _ h =>
        obtain ⟨hkey, hvalue⟩ := ih h
        refine ⟨hkey.imp_right ?_, hvalue.imp_right ?_⟩
        · rintro ⟨m', hmem, heq⟩
          exact ⟨m', List.mem_cons_of_mem _ hmem, heq⟩
        · rintro ⟨m', hmem, heq⟩
          exact ⟨m', List.mem_cons_of_mem _ hmem, heq⟩

theorem mem_itemsDict {items : List (Value F)} {u : Value F} (h : u ∈ itemsDict items) :
    ∃ v ∈ items, u = v.toDict := by
  induction items with
  | nil => cases h
  | cons first items ih =>
    unfold itemsDict at h
    cases h with
    | head => exact ⟨first, List.mem_cons_self, rfl⟩
    | tail _ h =>
      obtain ⟨v, hmem, heq⟩ := ih h
      exact ⟨v, List.mem_cons_of_mem first hmem, heq⟩

theorem mem_membersDict {dict members : List (Text × Value F)} {m : Text × Value F}
    (h : m ∈ membersDict dict members) :
    ((∃ m' ∈ dict, m.1 = m'.1) ∨ ∃ m' ∈ members, m.1 = m'.1) ∧
      ((∃ m' ∈ dict, m.2 = m'.2) ∨ ∃ m' ∈ members, m.2 = m'.2.toDict) := by
  induction members generalizing dict with
  | nil => exact ⟨.inl ⟨m, h, rfl⟩, .inl ⟨m, h, rfl⟩⟩
  | cons first members ih =>
    obtain ⟨key, v⟩ := first
    unfold membersDict at h
    obtain ⟨hkey, hvalue⟩ := ih h
    constructor
    · obtain ⟨m', hmem, heq⟩ | ⟨m', hmem, heq⟩ := hkey
      · rw [heq]
        cases (mem_setMember hmem).1 with
        | inl hnew => exact .inr ⟨(key, v), List.mem_cons_self, hnew⟩
        | inr hold => exact .inl hold
      · exact .inr ⟨m', List.mem_cons_of_mem _ hmem, heq⟩
    · obtain ⟨m', hmem, heq⟩ | ⟨m', hmem, heq⟩ := hvalue
      · rw [heq]
        cases (mem_setMember hmem).2 with
        | inl hnew => exact .inr ⟨(key, v), List.mem_cons_self, hnew⟩
        | inr hold => exact .inl hold
      · exact .inr ⟨m', List.mem_cons_of_mem _ hmem, heq⟩

theorem mentions_of_toDict {x : CodePoint} {v : Value F} (h : Mentions x v.toDict) :
    Mentions x v := by
  generalize hu : v.toDict = u at h
  induction h generalizing v with
  | str h =>
    cases v with
    | str s =>
      cases hu
      exact .str h
    | _ => cases hu
  | item hmem h ih =>
    cases v with
    | array items =>
      cases hu
      obtain ⟨v', hmem, heq⟩ := mem_itemsDict hmem
      exact .item hmem (ih heq.symm)
    | _ => cases hu
  | key hmem h =>
    cases v with
    | object members =>
      cases hu
      obtain ⟨⟨_, hnil, -⟩ | ⟨m', hmem, heq⟩, -⟩ := mem_membersDict hmem
      · cases hnil
      · exact .key hmem (heq ▸ h)
    | _ => cases hu
  | member hmem h ih =>
    cases v with
    | object members =>
      cases hu
      obtain ⟨-, ⟨_, hnil, -⟩ | ⟨m', hmem, heq⟩⟩ := mem_membersDict hmem
      · cases hnil
      · exact .member hmem (ih heq.symm)
    | _ => cases hu

theorem toDict_kind (v : Value F) : v.toDict.kind = v.kind := by
  cases v <;> rfl

section
variable {text a b rest : List Char} {v w : Value F}

theorem not_mentions_finish {x : CodePoint} {s : State F} (h : finish py s = .ok w)
    (hs : ¬ s.Mentions x) : ¬ Mentions x w := by
  unfold finish at h
  split at h
  · cases h
    exact fun hw => hs (.inl hw)
  · exact not_mentions_bare (numeralValue_isBare h)
  · obtain ⟨_, -, hthrow⟩ := ok_of_bind h
    cases hthrow
  · cases h

/-- A value that is cut out of a text behind a backtick, perhaps across several strings, is not the
value of the text: the backtick stands in a string of that. -/
theorem loads_cut_ne {cut : List Char} (hv : parse py text = .ok v) (hkind : v.kind ≠ .scalar)
    (hsplit : text = a ++ '`' :: (b ++ (cut ++ rest))) (hb : ∀ c ∈ b, c ≠ '"' ∧ c ≠ '\\')
    (hw : loads py cut = .ok w) : w ≠ v := by
  have hx : isHigh (code '`') = false := by decide
  have hrun := run_of_parse hv hkind
  rw [hsplit] at hrun
  obtain ⟨s, -, hrun⟩ := ok_run_append hrun
  obtain ⟨s', hmove, hrun⟩ := ok_run_cons hrun
  obtain ⟨target, read, -, heq⟩ := backtick_moves hmove
  have hmentions : s'.Mentions (code '`') := by
    rw [heq, push_code]
    exact .inl List.mem_cons_self
  have hvalue : Mentions (code '`') v :=
    (mentions_run hx hrun hmentions).resolve_right id
  obtain ⟨m, hb', hrun⟩ := ok_run_append hrun
  have hm : m.InString := run_inString hb' ⟨target, _, heq⟩ hb
  obtain ⟨n, hcut, -⟩ := ok_run_append hrun
  obtain ⟨u, hu, hdict⟩ := ok_of_bind hw
  obtain ⟨t, ht, hfinish⟩ := ok_of_bind hu
  have hstep : OutOfStep m (.value []) := .inl ⟨hm, rfl⟩
  have hnone : ¬ t.Mentions (code '`') := fun hlast => hstep.run hcut ht hlast
  rintro rfl
  cases hdict
  exact not_mentions_finish hfinish hnone (mentions_of_toDict hvalue)

theorem loads_cut_decodeError (hv : parse py text = .ok v)
    (hsplit : text = a ++ (b ++ '`' :: rest)) (hb : ∀ c ∈ b, c ≠ '"') :
    loads py a = .error .decodeError := by
  obtain ⟨last, hrun, -⟩ := ok_of_bind hv
  rw [hsplit] at hrun
  obtain ⟨s, ha, hrun⟩ := ok_run_append hrun
  obtain ⟨m, hb', hrun⟩ := ok_run_append hrun
  obtain ⟨n, hmove, -⟩ := ok_run_cons hrun
  obtain ⟨target, read, hm, -⟩ := backtick_moves hmove
  cases hs : s.isString with
  | false =>
    have hout := run_outside hb' hs hb
    rw [hm] at hout
    cases hout
  | true =>
    cases s with
    | string target escape read =>
      unfold loads parse
      rw [ha]
      rfl
    | _ => cases hs

end

end AutoPR.Json
