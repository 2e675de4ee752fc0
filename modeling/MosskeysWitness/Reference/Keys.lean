import MosskeysWitness.Reference.Feed
import MosskeysWitness.SeedFile

/-! Cosignature keys as lines of name, key id and key. The public key of a seed is a hash of it. -/

namespace MosskeysWitness.Reference

structure CosignatureKey where
  suite : Suite
  name : Text
  named : validateName name = .ok ()
  key : List UInt8
  sized : key.length = 32

namespace CosignatureKey

def typeByte : Suite → UInt8
  | .ed25519 => 4
  | .mldsa44 => 6

def new (suite : Suite) (name : Text) (key : List UInt8) : Except String CosignatureKey :=
  if valid : validateName name = .ok () ∧ key.length = 32 then
    .ok ⟨suite, name, valid.1, key, valid.2⟩
  else .error "malformed key"

def material (key : CosignatureKey) : List UInt8 := typeByte key.suite :: key.key

def id (key : CosignatureKey) : List UInt8 :=
  (Sha256.hash (Utf8.encode key.name ++ 10 :: key.material)).bytes.take 4

def encode (key : CosignatureKey) : Text :=
  key.name ++ '+' :: (hex key.id ++ '+' :: Base64.encode key.material)

theorem new_suite {suite : Suite} {name : Text} {bytes : List UInt8} {key : CosignatureKey}
    (built : new suite name bytes = .ok key) : key.suite = suite := by
  rw [new] at built
  split_ifs at built
  cases built
  rfl

theorem hex_solid (bytes : List UInt8) :
    ∀ scalar ∈ hex bytes, Strings.isWhitespace scalar = false := by
  have table : ∀ value < 16, Strings.isWhitespace (Nat.digitChar value) = false := by decide
  intro scalar member
  obtain ⟨byte, -, digit⟩ := List.mem_flatMap.mp member
  have bound := byte.toNat_lt
  simp only [List.mem_cons, List.not_mem_nil, or_false] at digit
  rcases digit with rfl | rfl
  · exact table _ (by omega)
  · exact table _ (by omega)

theorem encode_solid (key : CosignatureKey) :
    ∀ scalar ∈ key.encode, Strings.isWhitespace scalar = false := by
  intro scalar member
  simp only [encode, List.mem_append, List.mem_cons] at member
  rcases member with name | rfl | id | rfl | material
  · exact ((validateName_ok_iff.mp key.named).2 scalar name).1
  · decide
  · exact hex_solid key.id scalar id
  · decide
  · exact Keygen.encode_solid base64_canonical key.material scalar material

theorem material_of_encode {key key' : CosignatureKey} (same : key.encode = key'.encode) :
    key.material = key'.material := by
  have length : ∀ key : CosignatureKey, (Base64.encode key.material).length = 44 := by
    intro key
    rw [KeyLine.length_base64, material, List.length_cons, key.sized]
  have split : ∀ key : CosignatureKey, key.encode =
      (key.name ++ '+' :: (hex key.id ++ ['+'])) ++ Base64.encode key.material := by
    intro key
    simp [encode]
  rw [split, split] at same
  obtain ⟨-, encoded⟩ := List.append_inj' same ((length key).trans (length key').symm)
  calc
    _ = Base64.groups (Base64.encode key.material) := (Base64.groups_encode _).symm
    _ = Base64.groups (Base64.encode key'.material) := congrArg Base64.groups encoded
    _ = key'.material := Base64.groups_encode _

end CosignatureKey

def keygenCrates : KeygenCrates where
  base64 := base64
  VerifierKey := CosignatureKey
  publicKey := fun suite seed =>
    .ok (Sha256.hash (CosignatureKey.typeByte suite :: seed.bytes)).bytes
  newCosignature := CosignatureKey.new
  encode := CosignatureKey.encode

theorem keygenCrates_laws : keygenCrates.Laws where
  canonical := base64_canonical
  derives := fun _ _ => ⟨_, rfl⟩
  accepts := by
    intro suite name seed publicKey valid derived
    cases derived
    exact ⟨_, dif_pos ⟨valid, Hash.length_eq _⟩⟩
  solid := fun _ _ _ key _ _ => key.encode_solid
  suites := by
    intro name name' publicKey publicKey' key key' built built' same
    have types : CosignatureKey.typeByte (CosignatureKey.suite key) =
        CosignatureKey.typeByte (CosignatureKey.suite key') :=
      (List.cons.inj (CosignatureKey.material_of_encode same)).1
    rw [CosignatureKey.new_suite built, CosignatureKey.new_suite built'] at types
    exact absurd types (by decide)

end MosskeysWitness.Reference
