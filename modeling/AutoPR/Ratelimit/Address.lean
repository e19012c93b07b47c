import Mathlib.Algebra.Group.Nat.Defs
import Mathlib.Data.Nat.Notation

/-! The part of `ipaddress` that the resolver uses: addresses and networks of both
versions, read from text. -/
namespace AutoPR.Ratelimit

inductive Address where
  | v4 (ip : ℕ)
  /-- An address with its zone. -/
  | v6 (ip : ℕ) (scope : Option (List Char))
deriving DecidableEq

def asciiNat (cs : List Char) : Option ℕ :=
  if cs = [] || cs.any (!·.isDigit) then none
  else some (cs.foldl (fun acc c => 10 * acc + (c.toNat - '0'.toNat)) 0)

def parseOctet (cs : List Char) : Option ℕ :=
  (asciiNat cs).filter fun n =>
    cs.length ≤ 3 && (cs = ['0'] || cs.head? ≠ some '0') && n ≤ 255

def ipv4Int (cs : List Char) : Option ℕ :=
  match cs.splitOn '.' with
  | [a, b, c, d] => do
      let a ← parseOctet a
      let b ← parseOctet b
      let c ← parseOctet c
      let d ← parseOctet d
      return ((a * 256 + b) * 256 + c) * 256 + d
  | _ => none

def ipv4Address (cs : List Char) : Option ℕ := if '/' ∈ cs then none else ipv4Int cs

def hexDigit (c : Char) : Option ℕ :=
  if '0' ≤ c ∧ c ≤ '9' then some (c.toNat - '0'.toNat)
  else if 'a' ≤ c ∧ c ≤ 'f' then some (c.toNat - 'a'.toNat + 10)
  else if 'A' ≤ c ∧ c ≤ 'F' then some (c.toNat - 'A'.toNat + 10)
  else none

def parseHextet (cs : List Char) : Option ℕ :=
  if cs = [] || 4 < cs.length then none
  else (cs.mapM hexDigit).map fun digits => digits.foldl (16 * · + ·) 0

def expandSuffix (parts : List (List Char)) : Option (List (List Char)) :=
  match parts.getLast? with
  | none => none
  | some last =>
      if '.' ∈ last then
        (ipv4Address last).map fun ip =>
          parts.dropLast ++ [Nat.toDigits 16 (ip / 65536), Nat.toDigits 16 (ip % 65536)]
      else some parts

def skips (parts : List (List Char)) : List ℕ :=
  (List.range' 1 (parts.length - 2)).filter fun i => parts[i]? = some []

def layout (parts : List (List Char)) : Option (ℕ × ℕ) :=
  let leading := parts.head? = some []
  let trailing := parts.getLast? = some []
  match skips parts with
  | [] => if parts.length = 8 ∧ ¬ leading ∧ ¬ trailing then some (8, 0) else none
  | [k] =>
      let high := if leading then k - 1 else k
      let low := if trailing then parts.length - k - 2 else parts.length - k - 1
      if leading ∧ high ≠ 0 ∨ trailing ∧ low ≠ 0 ∨ 8 ≤ high + low then none
      else some (high, low)
  | _ => none

def ipv6Int (cs : List Char) : Option ℕ := do
  let parts := cs.splitOn ':'
  if parts.length < 3 then none
  else
    let parts ← expandSuffix parts
    if 9 < parts.length then none
    else
      let (high, low) ← layout parts
      let first ← (parts.take high).mapM parseHextet
      let last ← (parts.drop (parts.length - low)).mapM parseHextet
      return (first ++ List.replicate (8 - (high + low)) 0 ++ last).foldl (65536 * · + ·) 0

/-- `_split_scope_id`: any text without another percent sign is a zone. -/
def splitScope (cs : List Char) : Option (List Char × Option (List Char)) :=
  match cs.span (· ≠ '%') with
  | (addr, []) => some (addr, none)
  | (addr, _ :: scope) => if scope = [] ∨ '%' ∈ scope then none else some (addr, some scope)

def ipv6Address (cs : List Char) : Option (ℕ × Option (List Char)) := do
  if '/' ∈ cs then none
  else
    let (addr, scope) ← splitScope cs
    let ip ← ipv6Int addr
    return (ip, scope)

/-- `ipaddress.ip_address`; `none` is its ValueError. -/
def ipAddress (s : String) : Option Address :=
  match ipv4Address s.toList with
  | some ip => some (.v4 ip)
  | none => (ipv6Address s.toList).map fun a => .v6 a.1 a.2

def netmask (bits length : ℕ) : ℕ := 2 ^ bits - 2 ^ (bits - length)

inductive Network where
  | v4 (ip length : ℕ)
  | v6 (ip length : ℕ)
deriving DecidableEq

def Network.contains : Network → Address → Bool
  | .v4 net length, .v4 ip => ip &&& netmask 32 length = net &&& netmask 32 length
  | .v6 net length, .v6 ip _ => ip &&& netmask 128 length = net &&& netmask 128 length
  | .v4 _ _, .v6 _ _ | .v6 _ _, .v4 _ => false

def prefixFromString (bits : ℕ) (cs : List Char) : Option ℕ := (asciiNat cs).filter (· ≤ bits)

def prefixFromInt (ip : ℕ) : Option ℕ := (List.range 33).find? fun length => ip = netmask 32 length

def prefixFromIp (cs : List Char) : Option ℕ :=
  match ipv4Int cs with
  | none => none
  | some ip => (prefixFromInt ip).or (prefixFromInt (2 ^ 32 - 1 - ip))

def splitNetmask (cs : List Char) : Option (List Char × Option (List Char)) :=
  match cs.splitOn '/' with
  | [addr] => some (addr, none)
  | [addr, mask] => some (addr, some mask)
  | _ => none

def ipv4Network (cs : List Char) : Option Network := do
  let (addr, mask) ← splitNetmask cs
  let ip ← ipv4Address addr
  let length ← match mask with
    | none => some 32
    | some mask => (prefixFromString 32 mask).or (prefixFromIp mask)
  return .v4 ip length

def ipv6Network (cs : List Char) : Option Network := do
  let (addr, mask) ← splitNetmask cs
  let (ip, _) ← ipv6Address addr
  let length ← match mask with
    | none => some 128
    | some mask => prefixFromString 128 mask
  return .v6 ip length

/-- `ipaddress.ip_network` with `strict=False`. -/
def ipNetwork (s : String) : Option Network := (ipv4Network s.toList).or (ipv6Network s.toList)

example : ipAddress "203.0.113.7" = some (.v4 3405803783) := by decide

end AutoPR.Ratelimit
