import AutoPR.Library.Json
import Mathlib.Tactic.SplitIfs

/-! Runs of the JSON reader: what one step can do, and what its runs keep of that: the first
character of a text tells its kind, and a container ends with its last bracket. -/
namespace AutoPR.Json
open Posix (CodePoint Text code)
open Python (ok_of_bind)

variable {F : Type} {py : Interpreter F}

/-- The characters that open, close or escape something, and the backtick, which stands in strings
only. -/
def specials : List Char := ['"', '\\', '`', '[', ']', '{', '}']

def isSpecial (c : Char) : Bool := c ∈ specials

theorem isSpecial_eq_false {α : Type} {f : Char → Option α} {c : Char} {a : α}
    (hspecial : ∀ d ∈ specials, f d = none) (h : f c = some a) : isSpecial c = false := by
  unfold isSpecial
  rw [decide_eq_false_iff_not]
  intro hmem
  rw [hspecial c hmem] at h
  cases h

theorem isSpecial_of_next {part next : Part} {c : Char} (h : part.next c = some next) :
    isSpecial c = false := by
  have hnone : ∀ d ∈ specials, part.next d = none := by
    cases part with
    | exponent fractional | sign fractional => cases fractional <;> decide
    | minus | zero | whole | point | fraction | power => decide
  exact isSpecial_eq_false hnone h

theorem isSpecial_of_text {word : Word} {c : Char} (h : c ∈ word.text) : isSpecial c = false := by
  have hall : ∀ d ∈ word.text, isSpecial d = false := by
    cases word <;> decide
  exact hall c h

inductive Starts (stack : List (Frame F)) : Char → State F → Prop
  | string : Starts stack '"' (.string (.value stack) .plain [])
  | array : Starts stack '[' (.firstItem stack)
  | object : Starts stack '{' (.firstKey stack)
  | numeral {c : Char} (part : Part) (hc : isSpecial c = false) :
      Starts stack c (.numeral part [c] stack)
  | word {c : Char} (word : Word) (hc : isSpecial c = false) : Starts stack c (.word word 1 stack)

inductive Ends (v : Value F) : List (Frame F) → Char → State F → Prop
  | blank {stack : List (Frame F)} {c : Char} (hc : isBlank c = true) : Ends v stack c (.after v stack)
  | nextItem {before : List (Value F)} {stack : List (Frame F)} :
      Ends v (.item before :: stack) ',' (.value (.item (v :: before) :: stack))
  | closeArray {before : List (Value F)} {stack : List (Frame F)} :
      Ends v (.item before :: stack) ']' (.after (.array (v :: before).reverse) stack)
  | nextMember {before : List (Text × Value F)} {key : Text} {stack : List (Frame F)} :
      Ends v (.member before key :: stack) ',' (.nextKey ((key, v) :: before) stack)
  | closeObject {before : List (Text × Value F)} {key : Text} {stack : List (Frame F)} :
      Ends v (.member before key :: stack) '}'
        (.after (.object ((key, v) :: before).reverse) stack)

def Value.isBare : Value F → Bool
  | .null | .bool _ | .int _ | .float _ => true
  | .str _ | .array _ | .object _ => false

inductive Moves : State F → Char → State F → Prop
  | value {stack : List (Frame F)} {c : Char} (hc : isBlank c = true) :
      Moves (.value stack) c (.value stack)
  | start {stack : List (Frame F)} {c : Char} {t : State F} (h : Starts stack c t) :
      Moves (.value stack) c t
  | firstItem {stack : List (Frame F)} {c : Char} (hc : isBlank c = true) :
      Moves (.firstItem stack) c (.firstItem stack)
  | noItem {stack : List (Frame F)} : Moves (.firstItem stack) ']' (.after (.array []) stack)
  | startItem {stack : List (Frame F)} {c : Char} {t : State F}
      (h : Starts (.item [] :: stack) c t) : Moves (.firstItem stack) c t
  | firstKey {stack : List (Frame F)} {c : Char} (hc : isBlank c = true) :
      Moves (.firstKey stack) c (.firstKey stack)
  | noMember {stack : List (Frame F)} : Moves (.firstKey stack) '}' (.after (.object []) stack)
  | startFirstKey {stack : List (Frame F)} :
      Moves (.firstKey stack) '"' (.string (.key [] stack) .plain [])
  | nextKey {before : List (Text × Value F)} {stack : List (Frame F)} {c : Char}
      (hc : isBlank c = true) : Moves (.nextKey before stack) c (.nextKey before stack)
  | startKey {before : List (Text × Value F)} {stack : List (Frame F)} :
      Moves (.nextKey before stack) '"' (.string (.key before stack) .plain [])
  | colon {before : List (Text × Value F)} {key : Text} {stack : List (Frame F)} {c : Char}
      (hc : isBlank c = true) : Moves (.colon before key stack) c (.colon before key stack)
  | member {before : List (Text × Value F)} {key : Text} {stack : List (Frame F)} :
      Moves (.colon before key stack) ':' (.value (.member before key :: stack))
  | string {target : Target F} {escape : Escape} {read : Text} {c : Char} {t : State F}
      (h : stringStep target read escape c = .ok t) : Moves (.string target escape read) c t
  | numeral {part next : Part} {read : List Char} {stack : List (Frame F)} {c : Char}
      (hc : isSpecial c = false) :
      Moves (.numeral part read stack) c (.numeral next (c :: read) stack)
  | minusInfinity {part : Part} {read : List Char} {stack : List (Frame F)} :
      Moves (.numeral part read stack) 'I' (.word .minusInfinity 2 stack)
  | numeralEnd {part : Part} {read : List Char} {stack : List (Frame F)} {c : Char} {v : Value F}
      {t : State F} (hv : v.isBare = true) (h : Ends v stack c t) :
      Moves (.numeral part read stack) c t
  | word {word : Word} {read : Nat} {stack : List (Frame F)} {c : Char}
      (hc : isSpecial c = false) : Moves (.word word read stack) c (.word word (read + 1) stack)
  | wordEnd {word : Word} {read : Nat} {stack : List (Frame F)} {c : Char} {v : Value F}
      (hc : isSpecial c = false) (hv : v.isBare = true) :
      Moves (.word word read stack) c (.after v stack)
  | after {v : Value F} {stack : List (Frame F)} {c : Char} {t : State F} (h : Ends v stack c t) :
      Moves (.after v stack) c t

theorem enter_eq {stack : List (Frame F)} {s t : State F} (h : enter py stack s = .ok t) :
    s = t := by
  unfold enter at h
  split_ifs at h
  exact Except.ok.inj h

theorem start_starts {stack : List (Frame F)} {c : Char} {t : State F}
    (h : start py stack c = .ok t) : Starts stack c t := by
  unfold start at h
  split_ifs at h with hquote harray hobject
  · cases h
    exact hquote ▸ .string
  · cases enter_eq h
    exact harray ▸ .array
  · cases enter_eq h
    exact hobject ▸ .object
  · split at h
    · rename_i part hpart
      cases h
      exact .numeral part (isSpecial_eq_false (by decide) hpart)
    · rename_i word hnone hword
      cases h
      exact .word word (isSpecial_eq_false (by decide) hword)
    · cases h

theorem afterStep_ends {v : Value F} {stack : List (Frame F)} {c : Char} {t : State F}
    (h : afterStep v stack c = .ok t) : Ends v stack c t := by
  unfold afterStep at h
  split at h
  · split_ifs at h with hblank
    cases h
    exact .blank hblank
  · split_ifs at h with hblank hcomma hclose
    · cases h
      exact .blank hblank
    · cases h
      exact hcomma ▸ .nextItem
    · cases h
      exact hclose ▸ .closeArray
  · split_ifs at h with hblank hcomma hclose
    · cases h
      exact .blank hblank
    · cases h
      exact hcomma ▸ .nextMember
    · cases h
      exact hclose ▸ .closeObject

theorem integer_isBare {numeral : List Char} {v : Value F} (h : integer numeral = .ok v) :
    v.isBare = true := by
  unfold integer at h
  split_ifs at h
  split at h
  · cases h
    rfl
  · cases h
    rfl

theorem numeralValue_isBare {part : Part} {read : List Char} {v : Value F}
    (h : numeralValue py part read = .ok v) : v.isBare = true := by
  unfold numeralValue at h
  split at h
  · exact integer_isBare h
  · exact integer_isBare h
  · cases h
    rfl
  · cases h
    rfl
  · cases h
  · cases h
  · cases h
  all_goals
    obtain ⟨_, -, hthrow⟩ := ok_of_bind h
    cases hthrow

theorem step_moves {s : State F} {c : Char} {t : State F} (h : step py s c = .ok t) :
    Moves s c t := by
  cases s with
  | value stack =>
    dsimp only [step] at h
    split_ifs at h with hblank
    · cases h
      exact .value hblank
    · exact .start (start_starts h)
  | firstItem stack =>
    dsimp only [step] at h
    split_ifs at h with hblank hclose
    · cases h
      exact .firstItem hblank
    · cases h
      exact hclose ▸ .noItem
    · exact .startItem (start_starts h)
  | firstKey stack =>
    dsimp only [step] at h
    split_ifs at h with hblank hclose hquote
    · cases h
      exact .firstKey hblank
    · cases h
      exact hclose ▸ .noMember
    · cases h
      exact hquote ▸ .startFirstKey
  | nextKey before stack =>
    dsimp only [step] at h
    split_ifs at h with hblank hquote
    · cases h
      exact .nextKey hblank
    · cases h
      exact hquote ▸ .startKey
  | colon before key stack =>
    dsimp only [step] at h
    split_ifs at h with hblank hcolon
    · cases h
      exact .colon hblank
    · cases h
      exact hcolon ▸ .member
  | string target escape read => exact .string h
  | numeral part read stack =>
    dsimp only [step] at h
    split at h
    · rename_i next hnext
      cases h
      exact .numeral (isSpecial_of_next hnext)
    · split_ifs at h with hminus
      · cases h
        exact hminus.2 ▸ .minusInfinity
      · obtain ⟨v, hv, h⟩ := ok_of_bind h
        exact .numeralEnd (numeralValue_isBare hv) (afterStep_ends h)
  | word word read stack =>
    dsimp only [step] at h
    split_ifs at h with hnext hlast
    · cases h
      exact .wordEnd (isSpecial_of_text (List.mem_of_getElem? hnext)) (by cases word <;> rfl)
    · cases h
      exact .word (isSpecial_of_text (List.mem_of_getElem? hnext))
  | after v stack => exact .after (afterStep_ends h)

theorem stringStep_cases {target : Target F} {read : Text} {escape : Escape} {c : Char}
    {t : State F} (h : stringStep target read escape c = .ok t) :
    escape = .plain ∧ c = '"' ∧ t = target.close read.reverse ∨
      ∃ next, t = .string target next read ∨ ∃ d, t = .string target next (push d read) := by
  cases escape with
  | plain =>
    dsimp only [stringStep] at h
    split_ifs at h with hquote hbackslash hcontrol
    · cases h
      exact .inl ⟨rfl, hquote, rfl⟩
    · cases h
      exact .inr ⟨_, .inl rfl⟩
    · cases h
      exact .inr ⟨_, .inr ⟨_, rfl⟩⟩
  | backslash =>
    dsimp only [stringStep] at h
    split_ifs at h
    · cases h
      exact .inr ⟨_, .inl rfl⟩
    · split at h
      · cases h
        exact .inr ⟨_, .inr ⟨_, rfl⟩⟩
      · cases h
  | unit digits n =>
    dsimp only [stringStep] at h
    split at h
    · split_ifs at h
      · cases h
        exact .inr ⟨_, .inr ⟨_, rfl⟩⟩
      · cases h
        exact .inr ⟨_, .inl rfl⟩
    · cases h

def Frame.kind : Frame F → Kind
  | .item _ => .array
  | .member _ _ => .object

/-- The outermost of the containers that are open, or else what is inside. -/
def rootOf (inner : Option Kind) : List (Frame F) → Option Kind
  | [] => inner
  | frame :: rest => rootOf (some frame.kind) rest

/-- What kind of value the text is, as soon as its first character is read. -/
def State.root : State F → Option Kind
  | .value stack => rootOf none stack
  | .firstItem stack => rootOf (some .array) stack
  | .firstKey stack | .nextKey _ stack | .colon _ _ stack | .string (.key _ stack) _ _ =>
      rootOf (some .object) stack
  | .string (.value stack) _ _ | .numeral _ _ stack | .word _ _ stack =>
      rootOf (some .scalar) stack
  | .after v stack => rootOf (some v.kind) stack

theorem kind_of_isBare {v : Value F} (h : v.isBare = true) : v.kind = .scalar := by
  cases v with
  | null | bool | int | float | str => rfl
  | array | object => cases h

theorem Starts.root {frame : Frame F} {stack : List (Frame F)} {c : Char} {t : State F}
    (h : Starts (frame :: stack) c t) : t.root = rootOf (some frame.kind) stack := by
  cases h <;> rfl

theorem Ends.root {v : Value F} {stack : List (Frame F)} {c : Char} {t : State F}
    (h : Ends v stack c t) : t.root = rootOf (some v.kind) stack := by
  cases h <;> rfl

theorem Moves.root {s : State F} {c : Char} {t : State F} {k : Kind} (h : Moves s c t)
    (hk : s.root = some k) : t.root = some k := by
  cases h with
  | value | firstItem | noItem | firstKey | noMember | startFirstKey | nextKey | startKey | colon
  | member | numeral | minusInfinity | word => exact hk
  | @start stack _ _ h =>
    cases stack with
    | nil => cases hk
    | cons frame stack => exact h.root.trans hk
  | startItem h => exact h.root.trans hk
  | @string target _ _ _ _ h =>
    obtain ⟨-, -, rfl⟩ | ⟨next, rfl | ⟨d, rfl⟩⟩ := stringStep_cases h
    all_goals
      cases target
      · exact hk
      · exact hk
  | numeralEnd hv h =>
    rw [h.root, kind_of_isBare hv]
    exact hk
  | wordEnd _ hv =>
    dsimp only [State.root]
    rw [kind_of_isBare hv]
    exact hk
  | after h => exact h.root.trans hk

theorem ok_run_cons {s u : State F} {c : Char} {rest : List Char}
    (h : run py s (c :: rest) = .ok u) : ∃ t, Moves s c t ∧ run py t rest = .ok u := by
  obtain ⟨t, hstep, hrun⟩ := ok_of_bind h
  exact ⟨t, step_moves hstep, hrun⟩

theorem ok_run_append {s u : State F} {a b : List Char} (h : run py s (a ++ b) = .ok u) :
    ∃ t, run py s a = .ok t ∧ run py t b = .ok u := by
  induction a generalizing s with
  | nil => exact ⟨s, rfl, h⟩
  | cons c a ih =>
    obtain ⟨t, hstep, hrun⟩ := ok_of_bind h
    obtain ⟨m, ha, hb⟩ := ih hrun
    refine ⟨m, ?_, hb⟩
    rw [run, hstep]
    exact ha

theorem root_run {s t : State F} {text : List Char} {k : Kind} (h : run py s text = .ok t)
    (hk : s.root = some k) : t.root = some k := by
  induction text generalizing s with
  | nil =>
    cases h
    exact hk
  | cons c text ih =>
    obtain ⟨m, hmove, hrun⟩ := ok_run_cons h
    exact ih hrun (hmove.root hk)

theorem finish_root {s : State F} {v : Value F} {k : Kind} (h : finish py s = .ok v)
    (hk : s.root = some k) : v.kind = k := by
  unfold finish at h
  split at h
  · cases h
    exact Option.some_inj.mp hk
  · rw [kind_of_isBare (numeralValue_isBare h)]
    exact Option.some_inj.mp hk
  · obtain ⟨_, -, hthrow⟩ := ok_of_bind h
    cases hthrow
  · cases h

def kindOf (c : Char) : Kind := if c = '[' then .array else if c = '{' then .object else .scalar

theorem Starts.root_first {c : Char} {t : State F} (h : Starts [] c t) :
    t.root = some (kindOf c) := by
  have hscalar (hc : isSpecial c = false) : kindOf c = .scalar := by
    have hne : c ≠ '[' ∧ c ≠ '{' := by
      constructor
      · rintro rfl
        cases hc
      · rintro rfl
        cases hc
    unfold kindOf
    rw [if_neg hne.1, if_neg hne.2]
  cases h with
  | string | array | object => rfl
  | numeral part hc =>
    rw [hscalar hc]
    rfl
  | word word hc =>
    rw [hscalar hc]
    rfl

theorem parse_kind {c : Char} {rest : List Char} {v : Value F} (hc : isBlank c = false)
    (h : parse py (c :: rest) = .ok v) : v.kind = kindOf c := by
  obtain ⟨s, hrun, hfinish⟩ := ok_of_bind h
  obtain ⟨t, hmove, hrun⟩ := ok_run_cons hrun
  have hroot : t.root = some (kindOf c) := by
    cases hmove with
    | value hblank =>
      rw [hc] at hblank
      cases hblank
    | start hstart => exact hstart.root_first
  exact finish_root hfinish (root_run hrun hroot)

theorem run_of_parse {text : List Char} {v : Value F} (h : parse py text = .ok v)
    (hv : v.kind ≠ .scalar) : run py (.value []) text = .ok (.after v []) := by
  obtain ⟨s, hrun, hfinish⟩ := ok_of_bind h
  unfold finish at hfinish
  split at hfinish
  · cases hfinish
    exact hrun
  · exact absurd (kind_of_isBare (numeralValue_isBare hfinish)) hv
  · obtain ⟨_, -, hthrow⟩ := ok_of_bind hfinish
    cases hthrow
  · cases hfinish

theorem run_after {v : Value F} {rest : List Char} {s : State F}
    (h : run py (.after v []) rest = .ok s) : ∀ c ∈ rest, isBlank c = true := by
  induction rest with
  | nil =>
    intro c hc
    cases hc
  | cons d rest ih =>
    obtain ⟨t, hmove, hrun⟩ := ok_run_cons h
    cases hmove with
    | after hends =>
      cases hends with
      | blank hd =>
        intro c hc
        cases hc with
        | head => exact hd
        | tail _ hc => exact ih hrun c hc

theorem blank_of_parse_append {text rest : List Char} {v w : Value F}
    (h : parse py text = .ok v) (hv : v.kind ≠ .scalar)
    (happend : parse py (text ++ rest) = .ok w) : ∀ c ∈ rest, isBlank c = true := by
  obtain ⟨s, hrun, -⟩ := ok_of_bind happend
  obtain ⟨t, htext, hrest⟩ := ok_run_append hrun
  rw [run_of_parse h hv] at htext
  cases htext
  exact run_after hrest

def Kind.closing : Kind → Option Char
  | .scalar => none
  | .array => some ']'
  | .object => some '}'

theorem Ends.closing {u v : Value F} {stack : List (Frame F)} {c : Char}
    (h : Ends u stack c (.after v [])) (hc : isBlank c = false) : v.kind.closing = some c := by
  cases h with
  | blank hblank =>
    rw [hc] at hblank
    cases hblank
  | closeArray | closeObject => rfl

theorem parse_closing {text : List Char} {c : Char} {v : Value F}
    (h : parse py (text ++ [c]) = .ok v) (hv : v.kind ≠ .scalar) (hc : isBlank c = false) :
    v.kind.closing = some c := by
  obtain ⟨s, -, hlast⟩ := ok_run_append (run_of_parse h hv)
  obtain ⟨t, hmove, hrun⟩ := ok_run_cons hlast
  cases hrun
  cases hmove with
  | noItem | noMember => rfl
  | start hstart => cases hstart
  | startItem hstart => cases hstart
  | @string target _ _ _ _ h =>
    obtain ⟨-, -, heq⟩ | ⟨next, heq | ⟨d, heq⟩⟩ := stringStep_cases h
    · cases target with
      | value stack =>
        cases heq
        exact absurd rfl hv
      | key => cases heq
    · cases heq
    · cases heq
  | numeralEnd _ hends => exact hends.closing hc
  | wordEnd _ hbare => exact absurd (kind_of_isBare hbare) hv
  | after hends => exact hends.closing hc

end AutoPR.Json
