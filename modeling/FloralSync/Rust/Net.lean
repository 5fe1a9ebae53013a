import Mathlib.Data.List.Basic

/-! # Socket addresses (`std::net`)

What `str::parse::<SocketAddr>` accepts: `a.b.c.d:port`, or `[ipv6]:port` with an optional scope id. The
functions read as much as they can from the front of a text and give back the rest. -/

namespace Rust

/-- A parser that only says whether it succeeds, and what it leaves. -/
abbrev Reader := List Char → Option (List Char)

def readGivenChar (c : Char) : Reader
  | d :: cs => if d = c then some cs else none
  | [] => none

def digitValue (c : Char) : Option Nat :=
  if '0' ≤ c ∧ c ≤ '9' then some (c.toNat - '0'.toNat)
  else if 'a' ≤ c ∧ c ≤ 'f' then some (c.toNat - 'a'.toNat + 10)
  else if 'A' ≤ c ∧ c ≤ 'F' then some (c.toNat - 'A'.toNat + 10)
  else none

/-- `char::to_digit` -/
def toDigit (radix : Nat) (c : Char) : Option Nat := (digitValue c).filter (· < radix)

/-- `read_number`, for a type with the values up to `max`. -/
def readNumber (radix : Nat) (maxDigits : Option Nat) (allowZeroPrefix : Bool) (max : Nat) : Reader := fun cs =>
  let digits := cs.takeWhile fun c => (toDigit radix c).isSome
  let value := (digits.filterMap (toDigit radix)).foldl (fun n d => n * radix + d) 0
  if digits = [] ∨ (∃ m ∈ maxDigits, m < digits.length) ∨
      (allowZeroPrefix = false ∧ digits.head? = some '0' ∧ 1 < digits.length) ∨ max < value then none
  else some (cs.drop digits.length)

/-- `read_separator` -/
def readSeparator (sep : Char) (index : Nat) (inner : Reader) : Reader := fun cs =>
  if index = 0 then inner cs else readGivenChar sep cs >>= inner

def readIpv4Addr : Reader := fun cs =>
  (List.range 4).foldlM (fun cs i => readSeparator '.' i (readNumber 10 (some 3) false 255) cs) cs

/-- `read_groups`, with room for `left` groups after the first `i`: how many there are in the end, whether
the last two of them are an IPv4 address, and the rest of the text. -/
def readGroups : Nat → Nat → List Char → Nat × Bool × List Char
  | 0, i, cs => (i, false, cs)
  | left + 1, i, cs =>
    match if 0 < left then readSeparator ':' i readIpv4Addr cs else none with
    | some rest => (i + 2, true, rest)
    | none =>
      match readSeparator ':' i (readNumber 16 (some 4) true 65535) cs with
      | some rest => readGroups left (i + 1) rest
      | none => (i, false, cs)

def readIpv6Addr : Reader := fun cs =>
  let (headSize, headIpv4, rest) := readGroups 8 0 cs
  if headSize = 8 then some rest
  else if headIpv4 then none
  else do
    let rest ← readGivenChar ':' rest
    let rest ← readGivenChar ':' rest
    return (readGroups (8 - (headSize + 1)) 0 rest).2.2

def readPort : Reader := fun cs => readGivenChar ':' cs >>= readNumber 10 none true 65535

def readScopeId : Reader := fun cs => readGivenChar '%' cs >>= readNumber 10 none true 4294967295

def readSocketAddrV4 : Reader := fun cs => readIpv4Addr cs >>= readPort

def readSocketAddrV6 : Reader := fun cs => do
  let rest ← readGivenChar '[' cs
  let rest ← readIpv6Addr rest
  let rest ← readGivenChar ']' ((readScopeId rest).getD rest)
  readPort rest

/-- `parse::<SocketAddr>().is_ok()` -/
def isSocketAddr (s : String) : Bool :=
  ((readSocketAddrV4 s.toList).orElse fun _ => readSocketAddrV6 s.toList) = some []

example : ["0.0.0.0:8787", "[::]:8787", "[::1%3]:0", "[1:2:3:4:5:6:7.8.9.10]:65535"].all isSocketAddr := by
  decide

example : ["0.0.0.0", "256.0.0.1:80", "01.0.0.1:80", "[::1]:65536", "[1::2::3]:80", "localhost:80"].all
    fun s => !isSocketAddr s := by
  decide

end Rust
