import Mathlib.Data.List.Basic
import Mathlib.Tactic

/-! What the witness takes from other crates. Their code is not part of the repository, so
each is a record of functions, and a property of it states the documented behaviour the
witness relies on. -/

namespace MosskeysWitness

/-- A Rust string, as the list of its Unicode scalar values. -/
abbrev Text := List Char

/-- `[u8; 32]`. -/
structure Hash where
  bytes : List UInt8
  length_eq : bytes.length = 32
  deriving DecidableEq

/-- `base64::engine::general_purpose::STANDARD`; a decoding error is kept as its message. -/
structure Base64Engine where
  encode : List UInt8 → Text
  decode : Text → Except String (List UInt8)

/-- The standard engine decodes exactly the padded canonical encodings. -/
structure Base64Engine.Canonical (engine : Base64Engine) : Prop where
  decode_iff : ∀ text bytes, engine.decode text = .ok bytes ↔ text = engine.encode bytes
  alphabet : ∀ bytes, ∀ scalar ∈ engine.encode bytes,
    scalar.isAlphanum ∨ scalar = '+' ∨ scalar = '/' ∨ scalar = '='
  encode_ne_nil : ∀ bytes, bytes ≠ [] → engine.encode bytes ≠ []

theorem Base64Engine.Canonical.encode_single {engine : Base64Engine} (canonical : engine.Canonical)
    (bytes : List UInt8) : '\n' ∉ engine.encode bytes := by
  intro member
  have allowed := canonical.alphabet bytes '\n' member
  revert allowed
  decide

/-- `serde_json::to_string` and `serde_json::from_str` at one derived struct. -/
structure SerdeJson (α : Type) where
  toString : α → Except String Text
  fromStr : Text → Except String α

/-- A struct is written as one object on one line, control characters escaped; reading gives
the struct back, and an object cut short anywhere is an end-of-input error. -/
structure SerdeJson.Faithful {α : Type} (json : SerdeJson α) : Prop where
  total : ∀ value, ∃ text, json.toString value = .ok text
  round_trip : ∀ value text, json.toString value = .ok text → json.fromStr text = .ok value
  escaped : ∀ value text, json.toString value = .ok text → ∀ scalar ∈ text, 32 ≤ scalar.toNat
  object : ∀ value text, json.toString value = .ok text → text.getLast? = some '}'
  cut_short : ∀ value text start, json.toString value = .ok text → start <+: text →
    start ≠ text → ∃ message, json.fromStr start = .error message

end MosskeysWitness
