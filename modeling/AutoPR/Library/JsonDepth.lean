import AutoPR.Library.JsonRuns

/-! How deep a JSON text is nested. A reader with little room reads what one with more room reads,
up to the bracket for which there is none left. -/
namespace AutoPR.Json
open Posix (Text)
open Python (ok_of_bind)

variable {F : Type} {float : List Char → F} {py : Interpreter F}

mutual

/-- How many arrays and objects are open at once in the text of a value. -/
def Value.nesting : Value F → Nat
  | .array items => itemsNesting items + 1
  | .object members => membersNesting members + 1
  | .null | .bool _ | .int _ | .float _ | .str _ => 0

def itemsNesting : List (Value F) → Nat
  | [] => 0
  | v :: rest => max v.nesting (itemsNesting rest)

def membersNesting : List (Text × Value F) → Nat
  | [] => 0
  | (_, v) :: rest => max v.nesting (membersNesting rest)

end

def Frame.nesting : Frame F → Nat
  | .item before => itemsNesting before
  | .member before _ => membersNesting before

def stackDeepest : List (Frame F) → Nat
  | [] => 0
  | frame :: stack => max (stackDeepest stack) (stack.length + 1 + frame.nesting)

def State.deepest : State F → Nat
  | .value stack | .numeral _ _ stack | .word _ _ stack | .string (.value stack) _ _ =>
      stackDeepest stack
  | .firstItem stack | .firstKey stack => max (stackDeepest stack) (stack.length + 1)
  | .nextKey before stack | .colon before _ stack | .string (.key before stack) _ _ =>
      max (stackDeepest stack) (stack.length + 1 + membersNesting before)
  | .after v stack => max (stackDeepest stack) (stack.length + v.nesting)

theorem itemsNesting_append (a b : List (Value F)) :
    itemsNesting (a ++ b) = max (itemsNesting a) (itemsNesting b) := by
  induction a with
  | nil => simp [itemsNesting]
  | cons v a ih => rw [List.cons_append, itemsNesting, itemsNesting, ih, max_assoc]

theorem itemsNesting_reverse (items : List (Value F)) :
    itemsNesting items.reverse = itemsNesting items := by
  induction items with
  | nil => rfl
  | cons v items ih =>
    rw [List.reverse_cons, itemsNesting_append, ih, max_comm]
    simp [itemsNesting]

theorem membersNesting_append (a b : List (Text × Value F)) :
    membersNesting (a ++ b) = max (membersNesting a) (membersNesting b) := by
  induction a with
  | nil => simp [membersNesting]
  | cons m a ih => rw [List.cons_append, membersNesting, membersNesting, ih, max_assoc]

theorem membersNesting_reverse (members : List (Text × Value F)) :
    membersNesting members.reverse = membersNesting members := by
  induction members with
  | nil => rfl
  | cons m members ih =>
    rw [List.reverse_cons, membersNesting_append, ih, max_comm]
    simp [membersNesting]

theorem nesting_of_isBare {v : Value F} (h : v.isBare = true) : v.nesting = 0 := by
  cases v with
  | null | bool | int | float => simp [Value.nesting]
  | str | array | object => cases h

theorem length_le_stackDeepest (stack : List (Frame F)) : stack.length ≤ stackDeepest stack := by
  cases stack with
  | nil => exact Nat.le_refl 0
  | cons frame stack =>
    rw [stackDeepest, List.length_cons]
    omega

theorem Ends.deepest {v : Value F} {stack : List (Frame F)} {c : Char} {t : State F}
    (h : Ends v stack c t) : t.deepest = max (stackDeepest stack) (stack.length + v.nesting) := by
  cases h with
  | blank => rfl
  | nextItem =>
    simp only [State.deepest, stackDeepest, Frame.nesting, itemsNesting, List.length_cons]
    omega
  | closeArray =>
    simp only [State.deepest, stackDeepest, Frame.nesting, Value.nesting, itemsNesting_reverse,
      itemsNesting, List.length_cons]
    omega
  | nextMember =>
    simp only [State.deepest, stackDeepest, Frame.nesting, membersNesting, List.length_cons]
    omega
  | closeObject =>
    simp only [State.deepest, stackDeepest, Frame.nesting, Value.nesting, membersNesting_reverse,
      membersNesting, List.length_cons]
    omega

theorem Target.deepest_close (target : Target F) (s read : Text) (escape : Escape) :
    (target.close s).deepest = (State.string target escape read).deepest := by
  cases target with
  | value stack =>
    have hle := length_le_stackDeepest stack
    simp only [Target.close, State.deepest, Value.nesting]
    omega
  | key => rfl

def State.begins : State F → Bool
  | .value _ | .firstItem _ => true
  | _ => false

theorem Moves.deepest {s : State F} {c : Char} {t : State F} (h : Moves s c t)
    (hs : s.begins = false) : t.deepest = s.deepest := by
  cases h with
  | value | start | firstItem | noItem | startItem => cases hs
  | firstKey | nextKey | colon | numeral | minusInfinity | word | startKey | member => rfl
  | noMember | startFirstKey => simp [State.deepest, Value.nesting, membersNesting]
  | @string target escape read _ _ h =>
    obtain ⟨-, -, rfl⟩ | ⟨next, rfl | ⟨d, rfl⟩⟩ := stringStep_cases h
    · exact target.deepest_close _ _ _
    · cases target <;> rfl
    · cases target <;> rfl
  | @numeralEnd _ _ stack _ _ _ hv h =>
    have hle := length_le_stackDeepest stack
    rw [h.deepest, nesting_of_isBare hv]
    simp only [State.deepest]
    omega
  | @wordEnd _ _ stack _ _ _ hv =>
    have hle := length_le_stackDeepest stack
    simp only [State.deepest, nesting_of_isBare hv]
    omega
  | after h => exact h.deepest

theorem Starts.deepest_le {stack : List (Frame F)} {c : Char} {t : State F} (h : Starts stack c t) :
    stackDeepest stack ≤ t.deepest := by
  cases h with
  | string | numeral | word => exact Nat.le_refl _
  | array | object => exact Nat.le_max_left _ _

theorem Moves.deepest_le {s : State F} {c : Char} {t : State F} (h : Moves s c t) :
    s.deepest ≤ t.deepest := by
  cases hbegins : s.begins with
  | false => exact (h.deepest hbegins).ge
  | true =>
    cases h with
    | value | firstItem => exact Nat.le_refl _
    | start h => exact h.deepest_le
    | noItem => simp [State.deepest, Value.nesting, itemsNesting]
    | startItem h => exact h.deepest_le
    | _ => cases hbegins

section
variable {D d : Nat} {s t : State F} {c : Char} {stack : List (Frame F)}

theorem enter_limit (h : enter ⟨float, D⟩ stack s = .ok t) (hstack : stackDeepest stack ≤ d)
    (hs : s.deepest = max (stackDeepest stack) (stack.length + 1)) :
    enter ⟨float, d⟩ stack s = if t.deepest ≤ d then .ok t else .error .tooDeep := by
  rw [← enter_eq h, hs]
  unfold enter
  by_cases hroom : stack.length < d
  · rw [if_pos hroom, if_pos (Nat.max_le.mpr ⟨hstack, hroom⟩)]
    rfl
  · rw [if_neg hroom, if_neg fun hle => hroom (Nat.max_le.mp hle).2]
    rfl

theorem start_limit (h : start ⟨float, D⟩ stack c = .ok t) (hstack : stackDeepest stack ≤ d) :
    start ⟨float, d⟩ stack c = if t.deepest ≤ d then .ok t else .error .tooDeep := by
  unfold start at h ⊢
  split_ifs at h with hquote harray hobject
  · cases h
    have hsame : (State.string (.value stack) .plain []).deepest ≤ d := hstack
    rw [if_pos hquote, if_pos hsame]
    rfl
  · rw [if_neg hquote, if_pos harray]
    exact enter_limit h hstack rfl
  · rw [if_neg hquote, if_neg harray, if_pos hobject]
    exact enter_limit h hstack rfl
  · rw [if_neg hquote, if_neg harray, if_neg hobject]
    have hsame : t.deepest = stackDeepest stack := by
      split at h
      · cases h
        rfl
      · cases h
        rfl
      · cases h
    rw [hsame, if_pos hstack]
    exact h

theorem step_limit (h : step ⟨float, D⟩ s c = .ok t) (hs : s.deepest ≤ d) :
    step ⟨float, d⟩ s c = if t.deepest ≤ d then .ok t else .error .tooDeep := by
  cases hbegins : s.begins with
  | false =>
    have hsame : step ⟨float, d⟩ s c = step ⟨float, D⟩ s c := by
      cases s with
      | value | firstItem => cases hbegins
      | firstKey | nextKey | colon | string | numeral | word | after => rfl
    rw [hsame, h, if_pos]
    rwa [(step_moves h).deepest hbegins]
  | true =>
    cases s with
    | value stack =>
      dsimp only [step] at h ⊢
      split_ifs at h with hblank
      · cases h
        rw [if_pos hblank, if_pos hs]
        rfl
      · rw [if_neg hblank]
        exact start_limit h hs
    | firstItem stack =>
      have hle : max (stackDeepest stack) (stack.length + 1) ≤ d := hs
      dsimp only [step] at h ⊢
      split_ifs at h with hblank hclose
      · cases h
        rw [if_pos hblank, if_pos hs]
        rfl
      · cases h
        have hclosed : (State.after (.array []) stack : State F).deepest ≤ d := by
          simpa only [State.deepest, Value.nesting, itemsNesting, Nat.zero_add] using hle
        rw [if_neg hblank, if_pos hclose, if_pos hclosed]
        rfl
      · rw [if_neg hblank, if_neg hclose]
        exact start_limit h hle
    | _ => cases hbegins

theorem run_deepest {text : List Char} (h : run py s text = .ok t) : s.deepest ≤ t.deepest := by
  induction text generalizing s with
  | nil =>
    cases h
    exact Nat.le_refl _
  | cons c text ih =>
    obtain ⟨m, hmove, hrun⟩ := ok_run_cons h
    exact hmove.deepest_le.trans (ih hrun)

theorem run_limit {text : List Char} (h : run ⟨float, D⟩ s text = .ok t) (hs : s.deepest ≤ d) :
    run ⟨float, d⟩ s text = if t.deepest ≤ d then .ok t else .error .tooDeep := by
  induction text generalizing s with
  | nil =>
    cases h
    rw [if_pos hs]
    rfl
  | cons c text ih =>
    obtain ⟨m, hstep, hrun⟩ := ok_of_bind h
    rw [run, step_limit hstep hs]
    by_cases hm : m.deepest ≤ d
    · rw [if_pos hm]
      exact ih hrun hm
    · rw [if_neg hm, if_neg fun hle => hm ((run_deepest hrun).trans hle)]
      rfl

theorem finish_deepest {v : Value F} (h : finish py s = .ok v) : s.deepest = v.nesting := by
  unfold finish at h
  split at h
  · cases h
    simp [State.deepest, stackDeepest]
  · exact (nesting_of_isBare (numeralValue_isBare h)).symm
  · obtain ⟨_, -, hthrow⟩ := ok_of_bind h
    cases hthrow
  · cases h

theorem parse_limit {text : List Char} {v : Value F} (h : parse ⟨float, D⟩ text = .ok v) :
    parse ⟨float, d⟩ text = if v.nesting ≤ d then .ok v else .error .tooDeep := by
  obtain ⟨s, hrun, hfinish⟩ := ok_of_bind h
  have hzero : (State.value [] : State F).deepest ≤ d := Nat.zero_le d
  have hsame : finish ⟨float, d⟩ s = finish ⟨float, D⟩ s := rfl
  unfold parse
  rw [run_limit hrun hzero, finish_deepest hfinish]
  split
  · exact hsame.trans hfinish
  · rfl

end

theorem membersNesting_setMember {key : Text} {v : Value F} {dict : List (Text × Value F)} :
    membersNesting (setMember key v dict) ≤ max v.nesting (membersNesting dict) := by
  induction dict with
  | nil => exact Nat.le_refl _
  | cons m dict ih =>
    obtain ⟨k, w⟩ := m
    unfold setMember
    split
    · simp only [membersNesting]
      omega
    · simp only [membersNesting]
      omega

mutual

theorem nesting_toDict : ∀ v : Value F, v.toDict.nesting ≤ v.nesting
  | .array items => by
    have hitems := itemsNesting_dict items
    simp only [Value.toDict, Value.nesting]
    omega
  | .object members => by
    have hmembers := membersNesting_dict [] members
    simp only [membersNesting] at hmembers
    simp only [Value.toDict, Value.nesting]
    omega
  | .null | .bool _ | .int _ | .float _ | .str _ => Nat.le_refl _

theorem itemsNesting_dict : ∀ items : List (Value F),
    itemsNesting (itemsDict items) ≤ itemsNesting items
  | [] => Nat.le_refl _
  | v :: rest => by
    have hfirst := nesting_toDict v
    have hrest := itemsNesting_dict rest
    simp only [itemsDict, itemsNesting]
    omega

theorem membersNesting_dict : ∀ dict members : List (Text × Value F),
    membersNesting (membersDict dict members) ≤ max (membersNesting dict) (membersNesting members)
  | dict, [] => Nat.le_max_left _ _
  | dict, (key, v) :: rest => by
    have hfirst := nesting_toDict v
    have hset := @membersNesting_setMember F key v.toDict dict
    have hrest := membersNesting_dict (setMember key v.toDict dict) rest
    simp only [membersDict, membersNesting]
    omega

end

theorem nesting_le_of_loads {text : List Char} {v : Value F} (h : loads py text = .ok v) :
    v.nesting ≤ py.maxDepth := by
  obtain ⟨u, hu, hdict⟩ := ok_of_bind h
  cases hdict
  have hsame := @parse_limit F py.float py.maxDepth py.maxDepth text u hu
  have hle : u.nesting ≤ py.maxDepth := by
    by_contra hdeep
    rw [if_neg hdeep] at hsame
    exact absurd (hu.symm.trans hsame) (by rintro ⟨⟩)
  exact (nesting_toDict u).trans hle

end AutoPR.Json
