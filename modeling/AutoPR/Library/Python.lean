/-! Python values, as far as a program meets them in JSON and in mappings with
string keys: truth values, `str` and `repr`, `strip`, `int`, item access. An
operation that raises returns the kind of its exception. -/
namespace AutoPR.Python

/-- What holds of the characters of a list is decided on the list, not on all characters. -/
instance (priority := 1100) decidableForallMem (p : Char → Prop) [DecidablePred p]
    (cs : List Char) : Decidable (∀ c ∈ cs, p c) :=
  List.decidableBAll p cs

def lowersInAscii (c : Char) : Bool := c.toNat < 128 || c = 'ſ'

/-- Character data of the interpreter. -/
structure Unicode where
  printable : Char → Bool
  alnum : Char → Bool
  /-- The value of a decimal digit of any script. -/
  digit : Char → Option Nat
  lower : String → String
  lower_ascii : ∀ s : String, s.toList.all lowersInAscii = true →
    lower s = String.ofList (s.toList.map Char.toLower)

/-- Restricted to ASCII. -/
def Unicode.ascii : Unicode where
  printable c := 32 ≤ c.toNat && c.toNat < 127
  alnum c := c.isAlphanum
  digit c := if c.isDigit then some (c.toNat - '0'.toNat) else none
  lower s := String.ofList (s.toList.map Char.toLower)
  lower_ascii _ _ := rfl

inductive PyError where
  | attributeError
  | typeError
  | valueError
  | overflowError
  | recursionError
  /-- A value that the database does not take. -/
  | dataError
deriving DecidableEq

abbrev Py := Except PyError

inductive PyVal where
  | none
  | bool (b : Bool)
  | int (n : Int)
  /-- A float by its `repr`; `trunc` is missing for nan and the infinities. -/
  | float (repr : String) (isZero : Bool) (trunc : Option Int)
  | str (s : String)
  | list (items : List PyVal)
  | dict (items : List (String × PyVal))

def PyVal.isNone : PyVal → Bool
  | .none => true
  | _ => false

def PyVal.eqStr (v : PyVal) (s : String) : Bool :=
  match v with
  | .str t => t = s
  | _ => false

def PyVal.truthy : PyVal → Bool
  | .none => false
  | .bool b => b
  | .int n => n ≠ 0
  | .float _ isZero _ => !isZero
  | .str s => s ≠ ""
  | .list items => !items.isEmpty
  | .dict items => !items.isEmpty

/-- `v or w`. -/
def PyVal.or (v w : PyVal) : PyVal := if v.truthy then v else w

def isSpace (c : Char) : Bool :=
  let n := c.toNat
  (0x09 ≤ n && n ≤ 0x0d) || (0x1c ≤ n && n ≤ 0x20) || n = 0x85 || n = 0xa0 || n = 0x1680 ||
    (0x2000 ≤ n && n ≤ 0x200a) || n = 0x2028 || n = 0x2029 || n = 0x202f || n = 0x205f || n = 0x3000

def stripOf (skipped : Char → Bool) (s : String) : String :=
  String.ofList ((s.toList.dropWhile skipped).reverse.dropWhile skipped).reverse

def strip (s : String) : String := stripOf isSpace s

def isLineBreak (c : Char) : Bool :=
  let n := c.toNat
  (0x0a ≤ n && n ≤ 0x0d) || (0x1c ≤ n && n ≤ 0x1e) || n = 0x85 || n = 0x2028 || n = 0x2029

def linesFrom (line : List Char) : List Char → List String
  | [] => if line = [] then [] else [String.ofList line.reverse]
  | '\r' :: '\n' :: rest => String.ofList line.reverse :: linesFrom [] rest
  | c :: rest =>
      if isLineBreak c then String.ofList line.reverse :: linesFrom [] rest
      else linesFrom (c :: line) rest

def splitLines (s : String) : List String := linesFrom [] s.toList

/-- `s[:n]`. -/
def takeFirst (n : Nat) (s : String) : String := String.ofList (s.toList.take n)

/-- `s[-n:]` for positive `n`. -/
def takeLast (n : Nat) (s : String) : String :=
  String.ofList (s.toList.drop (s.toList.length - n))

def hex (width n : Nat) : String :=
  String.ofList ((Nat.toDigits 16 n).leftpad width '0')

def reprChar (u : Unicode) (quote c : Char) : String :=
  if c = quote || c = '\\' then String.ofList ['\\', c]
  else if c = '\t' then "\\t"
  else if c = '\n' then "\\n"
  else if c = '\r' then "\\r"
  else if u.printable c then c.toString
  else if c.toNat < 0x100 then "\\x" ++ hex 2 c.toNat
  else if c.toNat < 0x10000 then "\\u" ++ hex 4 c.toNat
  else "\\U" ++ hex 8 c.toNat

def reprStr (u : Unicode) (s : String) : String :=
  let quote := if s.contains '\'' && !s.contains '"' then '"' else '\''
  quote.toString ++ String.join (s.toList.map (reprChar u quote)) ++ quote.toString

mutual

def PyVal.repr (u : Unicode) : PyVal → String
  | .none => "None"
  | .bool true => "True"
  | .bool false => "False"
  | .int n => toString n
  | .float r _ _ => r
  | .str s => reprStr u s
  | .list items => "[" ++ ", ".intercalate (reprItems u items) ++ "]"
  | .dict items => "\x7b" ++ ", ".intercalate (reprPairs u items) ++ "\x7d"

def reprItems (u : Unicode) : List PyVal → List String
  | [] => []
  | v :: rest => v.repr u :: reprItems u rest

def reprPairs (u : Unicode) : List (String × PyVal) → List String
  | [] => []
  | (k, v) :: rest => (reprStr u k ++ ": " ++ v.repr u) :: reprPairs u rest

end

/-- `str(v)`, which is also how an f-string shows it. -/
def PyVal.toStr (u : Unicode) : PyVal → String
  | .str s => s
  | v => v.repr u

/-- `v.strip()`. -/
def PyVal.strip : PyVal → Py String
  | .str s => pure (Python.strip s)
  | _ => throw .attributeError

/-- A value that has to be a str, such as an item of `str.join`. -/
def PyVal.asStr : PyVal → Py String
  | .str s => pure s
  | _ => throw .typeError

/-- The digits after the first one; an underscore stands between two digits. -/
def digitsFrom (u : Unicode) (acc : Nat) : List Char → Option Nat
  | [] => some acc
  | '_' :: c :: rest => (u.digit c).bind fun d => digitsFrom u (10 * acc + d) rest
  | c :: rest => (u.digit c).bind fun d => digitsFrom u (10 * acc + d) rest

def parseNat (u : Unicode) (cs : List Char) : Option Nat :=
  match cs with
  | [] => none
  | c :: rest =>
      if (cs.filter (· ≠ '_')).length ≤ 4300 then
        (u.digit c).bind fun d => digitsFrom u d rest
      else none

/-- What `int` skips around a number: not the four separators that `str.strip` takes. -/
def isNumberSpace (c : Char) : Bool := isSpace c && !(0x1c ≤ c.toNat && c.toNat ≤ 0x1f)

def parseInt (u : Unicode) (s : String) : Option Int :=
  match (stripOf isNumberSpace s).toList with
  | '-' :: rest => (parseNat u rest).map fun n => -(n : Int)
  | '+' :: rest => (parseNat u rest).map Int.ofNat
  | cs => (parseNat u cs).map Int.ofNat

/-- `int(v)`. -/
def PyVal.toInt (u : Unicode) : PyVal → Py Int
  | .int n => pure n
  | .bool b => pure (if b then 1 else 0)
  | .float _ _ (some n) => pure n
  | .float repr _ .none => throw (if repr = "nan" then .valueError else .overflowError)
  | .str s =>
      match parseInt u s with
      | .some n => pure n
      | .none => throw .valueError
  | .none | .list _ | .dict _ => throw .typeError

/-- `v.get(key, default)`. -/
def PyVal.get (v : PyVal) (key : String) (default : PyVal) : Py PyVal :=
  match v with
  | .dict items => pure ((items.lookup key).getD default)
  | _ => throw .attributeError

/-- What a `for` loop over the value visits. -/
def PyVal.iter : PyVal → Py (List PyVal)
  | .list items => pure items
  | .dict items => pure (items.map fun p => .str p.1)
  | .str s => pure (s.toList.map fun c => .str c.toString)
  | .none | .bool _ | .int _ | .float _ _ _ => throw .typeError

theorem ok_of_bind {ε α β : Type} {m : Except ε α} {f : α → Except ε β} {b : β}
    (h : m >>= f = .ok b) : ∃ a, m = .ok a ∧ f a = .ok b := by
  cases hm : m with
  | ok a =>
    rw [hm] at h
    exact ⟨a, rfl, h⟩
  | error e =>
    rw [hm] at h
    cases h

def Yields {β : Type} (P : β → Prop) (x : Py β) : Prop := ∀ v, x = .ok v → P v

theorem Yields.pure {β : Type} {P : β → Prop} {v : β} (h : P v) : Yields P (pure v : Py β) := by
  intro w hw
  cases hw
  exact h

theorem Yields.bind_of {β γ : Type} {P : γ → Prop} {x : Py β} {f : β → Py γ}
    (h : ∀ b, x = .ok b → Yields P (f b)) : Yields P (x >>= f) := by
  intro v hv
  obtain ⟨b, hb, hv⟩ := ok_of_bind hv
  exact h b hb v hv

theorem Yields.bind {β γ : Type} {P : γ → Prop} {x : Py β} {f : β → Py γ}
    (h : ∀ b, Yields P (f b)) : Yields P (x >>= f) := Yields.bind_of fun b _ => h b

theorem Yields.ite {β : Type} {P : β → Prop} {c : Prop} [Decidable c] {x y : Py β}
    (hx : Yields P x) (hy : Yields P y) : Yields P (if c then x else y) := by
  split
  · exact hx
  · exact hy

end AutoPR.Python
