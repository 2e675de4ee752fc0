import Mathlib.Data.List.GetD
import MosskeysWitness.Crates

/-! The standard base64 engine: padded, and only canonical encodings decode. -/

namespace MosskeysWitness.Reference

namespace Base64

def alphabet : Text :=
  ['A', 'B', 'C', 'D', 'E', 'F', 'G', 'H', 'I', 'J', 'K', 'L', 'M', 'N', 'O', 'P',
    'Q', 'R', 'S', 'T', 'U', 'V', 'W', 'X', 'Y', 'Z', 'a', 'b', 'c', 'd', 'e', 'f',
    'g', 'h', 'i', 'j', 'k', 'l', 'm', 'n', 'o', 'p', 'q', 'r', 's', 't', 'u', 'v',
    'w', 'x', 'y', 'z', '0', '1', '2', '3', '4', '5', '6', '7', '8', '9', '+', '/']

def digit (value : Nat) : Char := alphabet.getD (value % 64) '='

def value (scalar : Char) : Nat := alphabet.idxOf scalar

def encode : List UInt8 → Text
  | [] => []
  | [a] => [digit (a.toNat / 4), digit (a.toNat % 4 * 16), '=', '=']
  | [a, b] =>
      [digit (a.toNat / 4), digit (a.toNat % 4 * 16 + b.toNat / 16),
        digit (b.toNat % 16 * 4), '=']
  | a :: b :: c :: rest =>
      [digit (a.toNat / 4), digit (a.toNat % 4 * 16 + b.toNat / 16),
        digit (b.toNat % 16 * 4 + c.toNat / 64), digit (c.toNat % 64)] ++ encode rest

/-- Four digits at a time, with no check of the input. -/
def groups : Text → List UInt8
  | p :: q :: r :: s :: rest =>
      let first := UInt8.ofNat (value p * 4 + value q / 16)
      let second := UInt8.ofNat (value q % 16 * 16 + value r / 4)
      let third := UInt8.ofNat (value r % 4 * 64 + value s)
      if r = '=' then [first]
      else if s = '=' then [first, second]
      else [first, second, third] ++ groups rest
  | _ => []

def decode (text : Text) : Except String (List UInt8) :=
  if encode (groups text) = text then .ok (groups text) else .error "invalid base64"

theorem value_digit {n : Nat} (small : n < 64) : value (digit n) = n := by
  have all : ∀ n < 64, value (digit n) = n := by decide
  exact all n small

theorem digit_ne_pad (n : Nat) : digit n ≠ '=' := by
  have all : ∀ n < 64, digit n ≠ '=' := by decide
  have reduced : digit n = digit (n % 64) := by simp [digit]
  rw [reduced]
  exact all (n % 64) (Nat.mod_lt n (by decide))

theorem digit_mem (n : Nat) : digit n ∈ alphabet := by
  have small : n % 64 < alphabet.length := Nat.mod_lt n (by decide)
  rw [digit, List.getD_eq_getElem _ _ small]
  exact List.getElem_mem small

private theorem byte_eq {n : Nat} (byte : UInt8) (same : n = byte.toNat) :
    UInt8.ofNat n = byte := by
  rw [same, UInt8.ofNat_toNat]

theorem groups_encode (bytes : List UInt8) : groups (encode bytes) = bytes := by
  induction bytes using encode.induct with
  | case1 => rfl
  | case2 a =>
      have bound := a.toNat_lt
      simp only [encode, groups, if_true]
      rw [value_digit (by omega), value_digit (by omega)]
      exact congrArg (fun byte => [byte]) (byte_eq a (by omega))
  | case3 a b =>
      have bound := a.toNat_lt
      have bound' := b.toNat_lt
      simp only [encode, groups, digit_ne_pad, if_false, if_true]
      rw [value_digit (by omega), value_digit (by omega), value_digit (by omega),
        byte_eq a (by omega), byte_eq b (by omega)]
  | case4 a b c rest ih =>
      have bound := a.toNat_lt
      have bound' := b.toNat_lt
      have bound'' := c.toNat_lt
      simp only [encode, groups, List.cons_append, List.nil_append, digit_ne_pad, if_false, ih]
      rw [value_digit (by omega), value_digit (by omega), value_digit (by omega),
        value_digit (by omega), byte_eq a (by omega), byte_eq b (by omega),
        byte_eq c (by omega)]

theorem mem_encode {bytes : List UInt8} {scalar : Char} (member : scalar ∈ encode bytes) :
    scalar ∈ alphabet ∨ scalar = '=' := by
  induction bytes using encode.induct with
  | case1 => cases member
  | case2 a =>
      simp only [encode, List.mem_cons, List.not_mem_nil, or_false] at member
      rcases member with rfl | rfl | rfl | rfl <;> simp [digit_mem]
  | case3 a b =>
      simp only [encode, List.mem_cons, List.not_mem_nil, or_false] at member
      rcases member with rfl | rfl | rfl | rfl <;> simp [digit_mem]
  | case4 a b c rest ih =>
      simp only [encode, List.mem_append, List.mem_cons, List.not_mem_nil, or_false] at member
      rcases member with (rfl | rfl | rfl | rfl) | inside
      · simp [digit_mem]
      · simp [digit_mem]
      · simp [digit_mem]
      · simp [digit_mem]
      · exact ih inside

end Base64

def base64 : Base64Engine := ⟨Base64.encode, Base64.decode⟩

theorem base64_canonical : base64.Canonical where
  decode_iff := by
    intro text bytes
    change Base64.decode text = .ok bytes ↔ text = Base64.encode bytes
    constructor
    · intro decoded
      rw [Base64.decode] at decoded
      split at decoded
      · rename_i canonical
        cases decoded
        exact canonical.symm
      · cases decoded
    · intro encoded
      subst encoded
      rw [Base64.decode, Base64.groups_encode, if_pos rfl]
  alphabet := by
    intro bytes scalar member
    have allowed : (Base64.alphabet.all fun scalar =>
        decide (scalar.isAlphanum ∨ scalar = '+' ∨ scalar = '/' ∨ scalar = '=')) = true := by
      decide
    rcases Base64.mem_encode member with inside | rfl
    · exact of_decide_eq_true (List.all_eq_true.mp allowed scalar inside)
    · simp
  encode_ne_nil := by
    intro bytes nonempty empty
    have decoded := Base64.groups_encode bytes
    change Base64.encode bytes = [] at empty
    rw [empty] at decoded
    exact nonempty decoded.symm

end MosskeysWitness.Reference
