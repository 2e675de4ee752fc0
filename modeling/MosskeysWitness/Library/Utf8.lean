import Mathlib.Data.List.Infix
import Mathlib.Tactic

/-! UTF-8 between lists of scalar values and lists of bytes, over the codec of the core library. -/

namespace Utf8

def encode (text : List Char) : List UInt8 := text.flatMap String.utf8EncodeChar

def decode (bytes : List UInt8) : Option (List Char) :=
  bytes.toByteArray.utf8Decode?.map Array.toList

private theorem toByteArray_encode (text : List Char) :
    (encode text).toByteArray = text.utf8Encode := rfl

@[simp] theorem encode_nil : encode [] = [] := rfl

@[simp] theorem encode_append (left right : List Char) :
    encode (left ++ right) = encode left ++ encode right := by
  simp [encode]

@[simp] theorem decode_encode (text : List Char) : decode (encode text) = some text := by
  simp [decode, toByteArray_encode]

theorem encode_of_decode {bytes : List UInt8} {text : List Char}
    (decoded : decode bytes = some text) : encode text = bytes := by
  simp only [decode, Option.map_eq_some_iff] at decoded
  rcases decoded with ⟨chars, found, rfl⟩
  have valid : bytes.toByteArray.utf8Decode?.isSome := by simp [found]
  obtain ⟨source, same⟩ := ByteArray.isSome_utf8Decode?_iff.mp valid
  have back : source.utf8Encode.utf8Decode? = some chars := same ▸ found
  rw [List.utf8Decode?_utf8Encode] at back
  cases Option.some.inj back
  apply List.toByteArray_inj.mp
  rw [toByteArray_encode, same]

theorem decode_eq_some_iff {bytes : List UInt8} {text : List Char} :
    decode bytes = some text ↔ encode text = bytes := by
  constructor
  · exact encode_of_decode
  · intro encoded
    rw [← encoded]
    exact decode_encode text

theorem encode_injective : Function.Injective encode := by
  intro left right same
  have decoded := decode_encode left
  rw [same, decode_encode] at decoded
  exact (Option.some.inj decoded).symm

@[simp] theorem encode_eq_nil_iff {text : List Char} : encode text = [] ↔ text = [] := by
  rw [← encode_nil, encode_injective.eq_iff]

theorem prefix_of_encode_prefix {left right : List Char}
    (starts : encode left <+: encode right) : left <+: right := by
  rcases starts with ⟨rest, whole⟩
  apply List.isPrefix_of_utf8Encode_append_eq_utf8Encode rest.toByteArray
  rw [← toByteArray_encode, ← toByteArray_encode, ← List.toByteArray_append, whole]

theorem encode_rest {front whole : List Char} {rest : List UInt8}
    (same : encode front ++ rest = encode whole) : ∃ text, encode text = rest := by
  rcases prefix_of_encode_prefix ⟨rest, same⟩ with ⟨text, rfl⟩
  rw [encode_append] at same
  exact ⟨text, (List.append_cancel_left same).symm⟩

theorem decode_append_iff {front : List Char} {rest : List UInt8} :
    (∃ text, decode (encode front ++ rest) = some text) ↔ ∃ text, encode text = rest := by
  constructor
  · rintro ⟨whole, decoded⟩
    exact encode_rest (encode_of_decode decoded).symm
  · rintro ⟨text, rfl⟩
    exact ⟨front ++ text, by rw [← encode_append, decode_encode]⟩

/-- Every byte of a scalar's encoding below 0x80 is the scalar itself. -/
theorem toNat_of_mem_utf8EncodeChar {scalar : Char} {byte : UInt8}
    (member : byte ∈ String.utf8EncodeChar scalar) (low : byte.toNat < 0x80) :
    scalar.toNat = byte.toNat := by
  have value : scalar.val.toNat = scalar.toNat := rfl
  unfold String.utf8EncodeChar at member
  simp only [value] at member
  split at member
  · simp only [List.mem_singleton] at member
    subst member
    simp only [UInt8.toNat_ofNat']
    omega
  · split at member
    · simp only [List.mem_cons, List.not_mem_nil, or_false] at member
      rcases member with rfl | rfl <;> simp only [UInt8.toNat_ofNat'] at low <;> omega
    · split at member <;> simp only [List.mem_cons, List.not_mem_nil, or_false] at member
      · rcases member with rfl | rfl | rfl <;> simp only [UInt8.toNat_ofNat'] at low <;> omega
      · rcases member with rfl | rfl | rfl | rfl <;> simp only [UInt8.toNat_ofNat'] at low <;> omega

theorem mem_of_mem_encode {text : List Char} {byte : UInt8} (member : byte ∈ encode text)
    (low : byte.toNat < 0x80) : ∃ scalar ∈ text, scalar.toNat = byte.toNat := by
  obtain ⟨scalar, inside, part⟩ := List.mem_flatMap.mp member
  exact ⟨scalar, inside, toNat_of_mem_utf8EncodeChar part low⟩

/-- In UTF-8 the newline byte stands for nothing but the newline character. -/
theorem newline_mem_encode_iff {text : List Char} : (10 : UInt8) ∈ encode text ↔ '\n' ∈ text := by
  constructor
  · intro member
    obtain ⟨scalar, inside, same⟩ := mem_of_mem_encode member (by decide)
    have newline : scalar = '\n' := by
      apply Char.ext
      apply UInt32.toNat_inj.mp
      exact same
    exact newline ▸ inside
  · intro member
    exact List.mem_flatMap.mpr ⟨'\n', member, by decide⟩

@[simp] theorem encode_newline : encode ['\n'] = [10] := by decide

theorem getLast?_newline_iff {bytes : List UInt8} {text : List Char}
    (decoded : decode bytes = some text) :
    text.getLast? = some '\n' ↔ bytes.getLast? = some 10 := by
  have whole := encode_of_decode decoded
  subst whole
  cases text using List.reverseRecOn with
  | nil => simp
  | append_singleton front last =>
      have bytes : encode [last] ≠ [] := by simp
      rw [List.getLast?_concat, encode_append, List.getLast?_append_of_ne_nil _ bytes]
      constructor
      · intro same
        cases Option.some.inj same
        simp
      · intro same
        have member : (10 : UInt8) ∈ encode [last] := List.mem_of_getLast? same
        have inside := newline_mem_encode_iff.mp member
        rw [List.mem_singleton.mp inside]

theorem not_encode_inside (front back : List Char) {scalar : Char} {count : Nat}
    (some_bytes : 0 < count) (not_all : count < (encode [scalar]).length) :
    ¬ ∃ text, encode text =
      (encode (front ++ scalar :: back)).take ((encode front).length + count) := by
  intro boundary
  rcases boundary with ⟨text, cut⟩
  have split : encode (front ++ scalar :: back) =
      encode front ++ (encode [scalar] ++ encode back) := by
    rw [← encode_append, ← encode_append, List.singleton_append]
  rw [split, List.take_length_add_append, List.take_append_of_le_length not_all.le] at cut
  have starts : front <+: text := by
    apply prefix_of_encode_prefix
    rw [cut]
    exact List.prefix_append _ _
  rcases starts with ⟨rest, rfl⟩
  rw [encode_append, List.append_cancel_left_eq] at cut
  have part : rest <+: [scalar] := by
    apply prefix_of_encode_prefix
    rw [cut]
    exact List.take_prefix _ _
  have length := congrArg List.length cut
  rw [List.length_take, min_eq_left not_all.le] at length
  cases rest with
  | nil =>
      rw [encode_nil, List.length_nil] at length
      exact absurd length some_bytes.ne
  | cons head tail =>
      have same := (List.cons_prefix_cons.mp part).1
      have short := (List.cons_prefix_cons.mp part).2
      rw [same, List.prefix_nil.mp short] at length
      exact absurd length not_all.ne'

end Utf8
