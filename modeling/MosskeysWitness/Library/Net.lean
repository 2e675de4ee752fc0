import Mathlib.Tactic

/-! `SocketAddr::from_str` of the Rust standard library. -/

inductive SocketAddr where
  | v4 (octets : List UInt8) (port : UInt16)
  | v6 (groups : List UInt16) (scopeId : UInt32) (port : UInt16)
  deriving DecidableEq

namespace SocketAddr

def toDigit (radix : Nat) (scalar : Char) : Option Nat :=
  let value :=
    if scalar.isDigit then scalar.toNat - 48
    else if 'a' ≤ scalar ∧ scalar ≤ 'f' then scalar.toNat - 87
    else if 'A' ≤ scalar ∧ scalar ≤ 'F' then scalar.toNat - 55
    else radix
  if value < radix then some value else none

/-- All digits there are, as a number of at most `limit`. -/
def readNumber (radix : Nat) (maxDigits : Option Nat) (allowZeroPrefix : Bool) (limit : Nat)
    (text : List Char) : Option (Nat × List Char) :=
  let digits :=
    (text.takeWhile fun scalar => (toDigit radix scalar).isSome).filterMap (toDigit radix)
  let value := digits.foldl (fun value digit => value * radix + digit) 0
  if digits = [] ∨ maxDigits.any (· < digits.length) ∨ limit < value then none
  else if !allowZeroPrefix && digits.head? = some 0 && 1 < digits.length then none
  else some (value, text.drop digits.length)

def readChar (expected : Char) : List Char → Option (List Char)
  | scalar :: rest => if scalar = expected then some rest else none
  | [] => none

def readIpv4 (text : List Char) : Option (List Nat × List Char) := do
  let (first, text) ← readNumber 10 (some 3) false 255 text
  let text ← readChar '.' text
  let (second, text) ← readNumber 10 (some 3) false 255 text
  let text ← readChar '.' text
  let (third, text) ← readNumber 10 (some 3) false 255 text
  let text ← readChar '.' text
  let (fourth, text) ← readNumber 10 (some 3) false 255 text
  pure ([first, second, third, fourth], text)

/-- Groups for at most so many slots, and whether the last two came from an IPv4 address. -/
def readGroups : Nat → Bool → List Char → List Nat × Bool × List Char
  | 0, _, text => ([], false, text)
  | slots + 1, first, text =>
      match if first then some text else readChar ':' text with
      | none => ([], false, text)
      | some inside =>
          match if slots = 0 then none else readIpv4 inside with
          | some (octets, rest) =>
              ([octets.getD 0 0 * 256 + octets.getD 1 0, octets.getD 2 0 * 256 + octets.getD 3 0],
                true, rest)
          | none =>
              match readNumber 16 (some 4) true 65535 inside with
              | none => ([], false, text)
              | some (group, rest) =>
                  let (groups, embedded, rest) := readGroups slots false rest
                  (group :: groups, embedded, rest)

def readIpv6 (text : List Char) : Option (List Nat × List Char) :=
  let (head, embedded, text) := readGroups 8 true text
  if head.length = 8 then some (head, text)
  else if embedded then none
  else do
    let text ← readChar ':' text
    let text ← readChar ':' text
    let (tail, _, text) := readGroups (8 - (head.length + 1)) true text
    pure (head ++ List.replicate (8 - head.length - tail.length) 0 ++ tail, text)

def readPort (text : List Char) : Option (Nat × List Char) := do
  let text ← readChar ':' text
  readNumber 10 none true 65535 text

def readV4 (text : List Char) : Option (SocketAddr × List Char) := do
  let (octets, text) ← readIpv4 text
  let (port, text) ← readPort text
  pure (.v4 (octets.map UInt8.ofNat) (UInt16.ofNat port), text)

def readV6 (text : List Char) : Option (SocketAddr × List Char) := do
  let text ← readChar '[' text
  let (groups, text) ← readIpv6 text
  let (scopeId, text) :=
    (do readNumber 10 none true 4294967295 (← readChar '%' text) : Option _).getD (0, text)
  let text ← readChar ']' text
  let (port, text) ← readPort text
  pure (.v6 (groups.map UInt16.ofNat) (UInt32.ofNat scopeId) (UInt16.ofNat port), text)

def parse (text : List Char) : Option SocketAddr :=
  match (readV4 text).orElse fun _ => readV6 text with
  | some (address, []) => some address
  | _ => none

example : parse ['0', '.', '0', '.', '0', '.', '0', ':', '8', '0'] =
    some (.v4 [0, 0, 0, 0] 80) := by
  decide

example : parse ['[', ':', ':', '1', ']', ':', '8', '0'] =
    some (.v6 [0, 0, 0, 0, 0, 0, 0, 1] 0 80) := by
  decide

end SocketAddr
