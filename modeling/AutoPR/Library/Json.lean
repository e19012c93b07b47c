import AutoPR.Library.Posix
import AutoPR.Library.Python

/-! JSON as the interpreter reads it: `NaN` and the infinities are values, control characters in
strings are not, an integer has at most as many digits as the interpreter converts, the last of
two members with one key counts. The reader takes one character at a time, with a stack of what
is open around it. -/
namespace AutoPR.Json
open Posix (CodePoint Text code)

/-- A value, with `F` for the floats. -/
inductive Value (F : Type) where
  | null
  | bool (b : Bool)
  | int (n : Int)
  | float (x : F)
  | str (s : Text)
  | array (items : List (Value F))
  | object (members : List (Text × Value F))

inductive Kind where
  | scalar
  | array
  | object
deriving DecidableEq

/-- `JSONDecodeError`, the `ValueError` of an integer that is too long, or the `RecursionError` of
values that are nested too deep. -/
inductive Failure where
  | decodeError
  | tooLong
  | tooDeep
deriving DecidableEq

/-- What the reader takes from the interpreter. -/
structure Interpreter (F : Type) where
  /-- `float` of a numeral. -/
  float : List Char → F
  /-- How many arrays and objects may be open at once: what the recursion limit leaves. -/
  maxDepth : Nat

/-- What is open around a value that is being read, its contents backwards. -/
inductive Frame (F : Type) where
  | item (before : List (Value F))
  | member (before : List (Text × Value F)) (key : Text)

inductive Target (F : Type) where
  | value (stack : List (Frame F))
  | key (before : List (Text × Value F)) (stack : List (Frame F))

/-- Where a string stands: outside an escape, behind its backslash, or in the digits of a code. -/
inductive Escape where
  | plain
  | backslash
  | unit (digits n : Nat)
deriving DecidableEq

/-- What a numeral has come to. An exponent knows whether a fraction stands before it. -/
inductive Part where
  | minus
  | zero
  | whole
  | point
  | fraction
  | exponent (fractional : Bool)
  | sign (fractional : Bool)
  | power
deriving DecidableEq

inductive Word where
  | null
  | true
  | false
  | nan
  | infinity
  | minusInfinity
deriving DecidableEq

inductive State (F : Type) where
  | value (stack : List (Frame F))
  /-- Behind `[`. -/
  | firstItem (stack : List (Frame F))
  /-- Behind `{`. -/
  | firstKey (stack : List (Frame F))
  | nextKey (before : List (Text × Value F)) (stack : List (Frame F))
  | colon (before : List (Text × Value F)) (key : Text) (stack : List (Frame F))
  | string (target : Target F) (escape : Escape) (read : Text)
  | numeral (part : Part) (read : List Char) (stack : List (Frame F))
  | word (word : Word) (read : Nat) (stack : List (Frame F))
  /-- Behind a value. -/
  | after (v : Value F) (stack : List (Frame F))

variable {F : Type}

def Value.kind : Value F → Kind
  | .array _ => .array
  | .object _ => .object
  | .null | .bool _ | .int _ | .float _ | .str _ => .scalar

def isBlank (c : Char) : Bool := c = ' ' || c = '\t' || c = '\n' || c = '\r'

def Part.first (c : Char) : Option Part :=
  if c = '-' then some .minus
  else if c = '0' then some .zero
  else if c.isDigit then some .whole else none

def Part.next : Part → Char → Option Part
  | .minus, c => if c = '0' then some .zero else if c.isDigit then some .whole else none
  | .zero, c =>
      if c = '.' then some .point else if c = 'e' || c = 'E' then some (.exponent false) else none
  | .whole, c =>
      if c.isDigit then some .whole else if c = '.' then some .point
      else if c = 'e' || c = 'E' then some (.exponent false) else none
  | .point, c => if c.isDigit then some .fraction else none
  | .fraction, c =>
      if c.isDigit then some .fraction
      else if c = 'e' || c = 'E' then some (.exponent true) else none
  | .exponent fractional, c =>
      if c = '+' || c = '-' then some (.sign fractional)
      else if c.isDigit then some .power else none
  | .sign _, c => if c.isDigit then some .power else none
  | .power, c => if c.isDigit then some .power else none

def digitValue (c : Char) : Nat := c.toNat - '0'.toNat

def natOf (digits : List Char) : Nat := digits.foldl (fun n c => 10 * n + digitValue c) 0

/-- `int` of a numeral without fraction and exponent. -/
def integer (numeral : List Char) : Except Failure (Value F) :=
  if 4300 < (numeral.filter Char.isDigit).length then throw .tooLong
  else match numeral with
    | '-' :: digits => pure (.int (-(natOf digits : Int)))
    | digits => pure (.int (natOf digits))

def Word.text : Word → List Char
  | .null => ['n', 'u', 'l', 'l']
  | .true => ['t', 'r', 'u', 'e']
  | .false => ['f', 'a', 'l', 's', 'e']
  | .nan => ['N', 'a', 'N']
  | .infinity => ['I', 'n', 'f', 'i', 'n', 'i', 't', 'y']
  | .minusInfinity => ['-', 'I', 'n', 'f', 'i', 'n', 'i', 't', 'y']

/-- The word that begins with a letter. `-Infinity` begins like a numeral. -/
def Word.first (c : Char) : Option Word :=
  if c = 'n' then some .null
  else if c = 't' then some .true
  else if c = 'f' then some .false
  else if c = 'N' then some .nan
  else if c = 'I' then some .infinity else none

def isHigh (c : CodePoint) : Bool := 0xd800 ≤ c.val && c.val < 0xdc00
def isLow (c : CodePoint) : Bool := 0xdc00 ≤ c.val && c.val < 0xe000

def joinSurrogates (high low : CodePoint) : CodePoint :=
  Fin.ofNat 0x110000 (0x10000 + (high.val - 0xd800) * 0x400 + (low.val - 0xdc00))

/-- One more code point of a string that is read backwards. Two surrogates that make a pair come
from two escapes, one behind the other. -/
def push (c : CodePoint) : Text → Text
  | [] => [c]
  | d :: read => if isHigh d && isLow c then joinSurrogates d c :: read else c :: d :: read

def hexValue (c : Char) : Option Nat :=
  if c.isDigit then some (digitValue c)
  else if 'a' ≤ c ∧ c ≤ 'f' then some (c.toNat - 'a'.toNat + 10)
  else if 'A' ≤ c ∧ c ≤ 'F' then some (c.toNat - 'A'.toNat + 10)
  else none

def escaped : Char → Option Char
  | '"' => some '"'
  | '\\' => some '\\'
  | '/' => some '/'
  | 'b' => some '\x08'
  | 'f' => some '\x0c'
  | 'n' => some '\n'
  | 'r' => some '\r'
  | 't' => some '\t'
  | _ => none

def Target.close (target : Target F) (s : Text) : State F :=
  match target with
  | .value stack => .after (.str s) stack
  | .key before stack => .colon before s stack

def stringStep (target : Target F) (read : Text) : Escape → Char → Except Failure (State F)
  | .plain, c =>
      if c = '"' then pure (target.close read.reverse)
      else if c = '\\' then pure (.string target .backslash read)
      else if c.toNat < 0x20 then throw .decodeError
      else pure (.string target .plain (push (code c) read))
  | .backslash, c =>
      if c = 'u' then pure (.string target (.unit 0 0) read)
      else match escaped c with
        | some d => pure (.string target .plain (push (code d) read))
        | none => throw .decodeError
  | .unit digits n, c =>
      match hexValue c with
      | some d =>
          if digits = 3 then
            pure (.string target .plain (push (Fin.ofNat 0x110000 (16 * n + d)) read))
          else pure (.string target (.unit (digits + 1) (16 * n + d)) read)
      | none => throw .decodeError

section
variable (py : Interpreter F)

def Word.value : Word → Value F
  | .null => .null
  | .true => .bool Bool.true
  | .false => .bool Bool.false
  | .nan => .float (py.float ['n', 'a', 'n'])
  | .infinity => .float (py.float ['i', 'n', 'f'])
  | .minusInfinity => .float (py.float ['-', 'i', 'n', 'f'])

/-- The value of a numeral that ends here. A point or an exponent without digits is not part of
it, so the reader will fail behind an integer. -/
def numeralValue (part : Part) (read : List Char) : Except Failure (Value F) :=
  let text := read.reverse
  match part with
  | .zero | .whole => integer text
  | .fraction | .power => pure (.float (py.float text))
  | .minus | .exponent true | .sign true => throw .decodeError
  | .point | .exponent false | .sign false => do
      let _ : Value F ← integer (text.takeWhile fun c => c = '-' || c.isDigit)
      throw .decodeError

def enter (stack : List (Frame F)) (s : State F) : Except Failure (State F) :=
  if stack.length < py.maxDepth then pure s else throw .tooDeep

/-- The first character of a value. -/
def start (stack : List (Frame F)) (c : Char) : Except Failure (State F) :=
  if c = '"' then pure (.string (.value stack) .plain [])
  else if c = '[' then enter py stack (.firstItem stack)
  else if c = '{' then enter py stack (.firstKey stack)
  else match Part.first c, Word.first c with
    | some part, _ => pure (.numeral part [c] stack)
    | none, some word => pure (.word word 1 stack)
    | none, none => throw .decodeError

def afterStep (v : Value F) : List (Frame F) → Char → Except Failure (State F)
  | [], c => if isBlank c then pure (.after v []) else throw .decodeError
  | .item before :: stack, c =>
      if isBlank c then pure (.after v (.item before :: stack))
      else if c = ',' then pure (.value (.item (v :: before) :: stack))
      else if c = ']' then pure (.after (.array (v :: before).reverse) stack)
      else throw .decodeError
  | .member before key :: stack, c =>
      if isBlank c then pure (.after v (.member before key :: stack))
      else if c = ',' then pure (.nextKey ((key, v) :: before) stack)
      else if c = '}' then pure (.after (.object ((key, v) :: before).reverse) stack)
      else throw .decodeError

def step : State F → Char → Except Failure (State F)
  | .value stack, c => if isBlank c then pure (.value stack) else start py stack c
  | .firstItem stack, c =>
      if isBlank c then pure (.firstItem stack)
      else if c = ']' then pure (.after (.array []) stack)
      else start py (.item [] :: stack) c
  | .firstKey stack, c =>
      if isBlank c then pure (.firstKey stack)
      else if c = '}' then pure (.after (.object []) stack)
      else if c = '"' then pure (.string (.key [] stack) .plain [])
      else throw .decodeError
  | .nextKey before stack, c =>
      if isBlank c then pure (.nextKey before stack)
      else if c = '"' then pure (.string (.key before stack) .plain [])
      else throw .decodeError
  | .colon before key stack, c =>
      if isBlank c then pure (.colon before key stack)
      else if c = ':' then pure (.value (.member before key :: stack))
      else throw .decodeError
  | .string target escape read, c => stringStep target read escape c
  | .numeral part read stack, c =>
      match part.next c with
      | some next => pure (.numeral next (c :: read) stack)
      | none =>
          if part = .minus ∧ c = 'I' then
            pure (.word .minusInfinity 2 stack)
          else do
            let v ← numeralValue py part read
            afterStep v stack c
  | .word word read stack, c =>
      if word.text[read]? = some c then
        if read + 1 = word.text.length then pure (.after (word.value py) stack)
        else pure (.word word (read + 1) stack)
      else throw .decodeError
  | .after v stack, c => afterStep v stack c

def finish : State F → Except Failure (Value F)
  | .after v [] => pure v
  | .numeral part read [] => numeralValue py part read
  | .numeral part read (_ :: _) => do
      let _ ← numeralValue py part read
      throw .decodeError
  | _ => throw .decodeError

def run : State F → List Char → Except Failure (State F)
  | s, [] => pure s
  | s, c :: rest => do
      let t ← step py s c
      run t rest

def parse (text : List Char) : Except Failure (Value F) := do
  let s ← run py (.value []) text
  finish py s

end

/-- A member of a dictionary; one with its key loses its value, but not its place. -/
def setMember (key : Text) (v : Value F) : List (Text × Value F) → List (Text × Value F)
  | [] => [(key, v)]
  | (k, w) :: rest => if k = key then (k, v) :: rest else (k, w) :: setMember key v rest

mutual

def Value.toDict : Value F → Value F
  | .array items => .array (itemsDict items)
  | .object members => .object (membersDict [] members)
  | v => v

def itemsDict : List (Value F) → List (Value F)
  | [] => []
  | v :: rest => v.toDict :: itemsDict rest

def membersDict (dict : List (Text × Value F)) : List (Text × Value F) → List (Text × Value F)
  | [] => dict
  | (key, v) :: rest => membersDict (setMember key v.toDict dict) rest

end

/-- `json.loads`. -/
def loads (py : Interpreter F) (text : List Char) : Except Failure (Value F) := do
  let v ← parse py text
  return v.toDict

end AutoPR.Json
