import MosskeysWitness.Crates
import MosskeysWitness.Library.Strings

/-! Witness key names, and what key generation and seed loading can refuse. -/

namespace MosskeysWitness

inductive Suite where
  | ed25519
  | mldsa44
  deriving DecidableEq

namespace Suite

def all : List Suite := [.ed25519, .mldsa44]

def tag : Suite → String
  | .ed25519 => "ed25519"
  | .mldsa44 => "mldsa44"

def display : Suite → Text
  | .ed25519 => "Ed25519 (0x04)".toList
  | .mldsa44 => "ML-DSA-44 (0x06)".toList

end Suite

inductive FileError where
  | notFound
  | invalidData
  | create
  | write
  | sync
  | rename
  deriving DecidableEq

inductive KeygenError where
  | invalidName (name : Text)
  | seedFileExists (path : String)
  | io (path : String) (source : FileError)
  | vkey (suite : Suite) (reason : String)
  | insecurePermissions (path : String) (mode : UInt32)
  | nameMismatch (path : String) (want found : Text)
  | vkeyMismatch (path : String)
  deriving DecidableEq

def validateName (name : Text) : Except KeygenError Unit :=
  if name = [] ∨ name.any fun scalar => Strings.isWhitespace scalar || scalar = '+' then
    .error (.invalidName name)
  else .ok ()

theorem validateName_ok_iff {name : Text} : validateName name = .ok () ↔
    name ≠ [] ∧ ∀ scalar ∈ name, Strings.isWhitespace scalar = false ∧ scalar ≠ '+' := by
  unfold validateName
  split
  · rename_i refused
    simp only [List.any_eq_true, Bool.or_eq_true, decide_eq_true_eq] at refused
    constructor
    · intro impossible
      cases impossible
    · intro valid
      rcases refused with empty | ⟨scalar, member, white | plus⟩
      · exact absurd empty valid.1
      · exact absurd white (by simp [(valid.2 scalar member).1])
      · exact absurd plus (valid.2 scalar member).2
  · rename_i passed
    simpa using passed

theorem validateName_error {name : Text} {e : KeygenError}
    (refused : validateName name = .error e) : e = .invalidName name := by
  unfold validateName at refused
  split at refused <;> cases refused
  rfl

end MosskeysWitness
