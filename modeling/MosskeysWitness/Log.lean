import MosskeysWitness.Record

/-! The transparency-log crate: signed notes, checkpoints, consistency proofs and cosignatures.
The witness sees its values only through the functions below. -/

namespace MosskeysWitness

/-- The error variants the witness tells apart, and the others by their text. -/
inductive LogError where
  | invalidSignature
  | rootMismatch
  | other (message : String)
  deriving DecidableEq

structure MetamorphicLog where
  Checkpoint : Type
  SignedNote : Type
  Signature : Type
  VerifierKey : Type
  keyEq : DecidableEq VerifierKey
  -- `Checkpoint::parse`, `new`, `origin`, `size`, `root_hash` and `verify_consistency`.
  parseCheckpoint : Text → Except LogError Checkpoint
  newCheckpoint : Text → UInt64 → Hash → Except LogError Checkpoint
  origin : Checkpoint → Text
  size : Checkpoint → UInt64
  rootHash : Checkpoint → Hash
  verifyConsistency : Checkpoint → Checkpoint → List Hash → Except LogError Unit
  emptyRoot : Hash
  -- `SignedNote::parse`, `new`, `text`, `signatures`, `marshal` and `verify`, and
  -- `Signature::marshal_line`.
  parseNote : Text → Except LogError SignedNote
  newNote : Text → List Signature → Except LogError SignedNote
  text : SignedNote → Text
  signatures : SignedNote → List Signature
  marshal : SignedNote → Text
  marshalLine : Signature → Text
  verify : SignedNote → List VerifierKey → Except LogError (List Signature)
  -- The signers, by note text, key name, seed and timestamp.
  signEd25519 : Text → Text → Hash → UInt64 → Except LogError Signature
  signMldsa44 : Text → Text → Hash → UInt64 → Except LogError Signature
  display : LogError → String
  -- What `verify` goes by: a key has the signature's name and key id, and a signature of a
  -- text verifies under a key.
  names : VerifierKey → Signature → Bool
  verifies : VerifierKey → Text → Signature → Bool

namespace MetamorphicLog

variable (log : MetamorphicLog)

/-- A signed note is its text, an empty line and the signature lines, and no other note is read
out of its rendering. -/
structure NoteLaws : Prop where
  parse_marshal : ∀ text signatures note parsed, log.newNote text signatures = .ok note →
    log.parseNote (log.marshal note) = .ok parsed → parsed = note
  new_text : ∀ text signatures note, log.newNote text signatures = .ok note →
    log.text note = text ∧ log.signatures note = signatures
  marshal_lines : ∀ text signatures note, log.newNote text signatures = .ok note →
    log.marshal note =
      text ++ ['\n'] ++ signatures.flatMap fun signature => log.marshalLine signature ++ ['\n']
  line_single : ∀ signature, '\n' ∉ log.marshalLine signature

/-- A note of at most `limit` signatures is read back from its rendering. -/
def RoundTrips (limit : Nat) : Prop :=
  ∀ text signatures note, log.newNote text signatures = .ok note → signatures.length ≤ limit →
    log.parseNote (log.marshal note) = .ok note

/-- A note is built from the text of a parsed note and any signatures, if there are some. -/
def NewNoteAccepts : Prop :=
  ∀ source note signatures, log.parseNote source = .ok note → signatures ≠ [] →
    ∃ rebuilt, log.newNote (log.text note) signatures = .ok rebuilt

/-- A signature carries a trusted key's name and key id and does not verify under it. -/
def Forged (note : log.SignedNote) (trusted : List log.VerifierKey) : Prop :=
  ∃ signature ∈ log.signatures note, ∃ key ∈ trusted,
    log.names key signature = true ∧ log.verifies key (log.text note) signature = false

def Unknown (note : log.SignedNote) (trusted : List log.VerifierKey) : Prop :=
  ∀ signature ∈ log.signatures note, ∀ key ∈ trusted, log.names key signature = false

/-- The signed-note verifier: signatures of unknown keys are ignored, a trusted key's signature
must verify, and there must be one. -/
structure VerifyLaws : Prop where
  forged : ∀ note trusted, log.Forged note trusted →
    log.verify note trusted = .error .invalidSignature
  unknown : ∀ note trusted, log.Unknown note trusted →
    ∃ message, log.verify note trusted = .error (.other message)
  genuine : ∀ note trusted, ¬ log.Forged note trusted → ¬ log.Unknown note trusted →
    ∃ verified, log.verify note trusted = .ok verified ∧ verified ≠ [] ∧
      ∀ signature ∈ verified, signature ∈ log.signatures note ∧
        ∃ key ∈ trusted, log.names key signature = true ∧
          log.verifies key (log.text note) signature = true

@[ext] structure Head where
  size : UInt64
  root : Hash
  deriving DecidableEq

def head (checkpoint : log.Checkpoint) : Head := ⟨log.size checkpoint, log.rootHash checkpoint⟩

/-- A checkpoint has the parts it was built from, and the parts of a parsed checkpoint build
one. -/
structure CheckpointLaws : Prop where
  new_parts : ∀ origin size root checkpoint,
    log.newCheckpoint origin size root = .ok checkpoint →
      log.origin checkpoint = origin ∧ log.head checkpoint = ⟨size, root⟩
  new_parsed : ∀ text checkpoint, log.parseCheckpoint text = .ok checkpoint →
    ∃ rebuilt, log.newCheckpoint (log.origin checkpoint) (log.size checkpoint)
      (log.rootHash checkpoint) = .ok rebuilt

/-- Consistency of heads, as `verify_consistency` vouches for it. -/
structure ConsistencyLaws (consistent : Head → Head → Prop) : Prop where
  sound : ∀ old new proof, log.verifyConsistency old new proof = .ok () →
    consistent (log.head old) (log.head new)
  trans : ∀ first second third, consistent first second → consistent second third →
    consistent first third
  same_size : ∀ first second, consistent first second → first.size = second.size →
    first.root = second.root
  empty : ∀ second, (second.size = 0 → second.root = log.emptyRoot) →
    consistent ⟨0, log.emptyRoot⟩ second

def RejectsFork : Prop :=
  ∀ old new proof, log.size old = log.size new → log.rootHash old ≠ log.rootHash new →
    log.verifyConsistency old new proof ≠ .ok ()

/-- Under this name the signers sign every checkpoint of the origin, at any nonzero time. -/
def SignersSucceed (name : Text) (ed25519 mldsa44 : Hash) (origin : Text) : Prop :=
  ∀ text checkpoint timestamp, log.parseCheckpoint text = .ok checkpoint →
    log.origin checkpoint = origin → timestamp ≠ 0 →
      (∃ signature, log.signEd25519 text name ed25519 timestamp = .ok signature) ∧
        ∃ signature, log.signMldsa44 text name mldsa44 timestamp = .ok signature

/-- A signer that fails at one nonzero time fails so at every other. -/
structure SignersTimeless : Prop where
  ed25519 : ∀ text name seed timestamp timestamp' e, timestamp ≠ 0 → timestamp' ≠ 0 →
    log.signEd25519 text name seed timestamp = .error e →
      log.signEd25519 text name seed timestamp' = .error e
  mldsa44 : ∀ text name seed timestamp timestamp' e, timestamp ≠ 0 → timestamp' ≠ 0 →
    log.signMldsa44 text name seed timestamp = .error e →
      log.signMldsa44 text name seed timestamp' = .error e

variable {log}

theorem VerifyLaws.of_verified (laws : log.VerifyLaws) {note : log.SignedNote}
    {trusted : List log.VerifierKey} {verified : List log.Signature}
    (accepted : log.verify note trusted = .ok verified) :
    verified ≠ [] ∧ ∀ signature ∈ verified, signature ∈ log.signatures note ∧
      ∃ key ∈ trusted, log.names key signature = true ∧
        log.verifies key (log.text note) signature = true := by
  have genuine : ¬ log.Forged note trusted := by
    intro forged
    rw [laws.forged note trusted forged] at accepted
    cases accepted
  have known : ¬ log.Unknown note trusted := by
    intro unknown
    have refused := laws.unknown note trusted unknown
    rw [accepted] at refused
    rcases refused with ⟨message, impossible⟩
    cases impossible
  obtain ⟨signatures, same, rest⟩ := laws.genuine note trusted genuine known
  rw [accepted] at same
  cases same
  exact rest

end MetamorphicLog

structure WitnessCrates extends StoreCrates where
  log : MetamorphicLog

end MosskeysWitness
