import MosskeysWitness.Reference.Json
import MosskeysWitness.Reference.Note
import MosskeysWitness.Reference.Sha256
import MosskeysWitness.Tree

/-! A transparency-log crate that meets all that is assumed of one. Notes and checkpoints are the
real formats, a signature is a keyed hash, and consistency proofs are recognised for one tree. -/

namespace MosskeysWitness.Reference

open MetamorphicLog (Head)

/-- The first line of a checkpoint. -/
def IsOrigin (origin : Text) : Prop := origin ≠ [] ∧ '\n' ∉ origin

instance (origin : Text) : Decidable (IsOrigin origin) := inferInstanceAs (Decidable (_ ∧ _))

structure Checkpoint where
  origin : Text
  size : UInt64
  root : Hash
  named : IsOrigin origin

namespace Checkpoint

def new (origin : Text) (size : UInt64) (root : Hash) : Except LogError Checkpoint :=
  if named : IsOrigin origin then .ok ⟨origin, size, root, named⟩
  else .error (.other "malformed origin")

def parseSize (line : Text) : Option UInt64 :=
  let size := UInt64.ofNat (Nat.ofDigitChars 10 line 0)
  if decimal size = line then some size else none

def parseRoot (line : Text) : Option Hash :=
  match Base64.decode line with
  | .error _ => none
  | .ok bytes => if sized : bytes.length = 32 then some ⟨bytes, sized⟩ else none

/-- Origin, size and root, a line each; what follows them are extension lines. -/
def parse (text : Text) : Except LogError Checkpoint :=
  match Strings.splitOnce '\n' text with
  | none => .error (.other "missing origin")
  | some (origin, rest) =>
      match Strings.splitOnce '\n' rest with
      | none => .error (.other "missing size")
      | some (sizeLine, rest) =>
          match Strings.splitOnce '\n' rest with
          | none => .error (.other "missing root")
          | some (rootLine, _) =>
              match parseSize sizeLine, parseRoot rootLine with
              | some size, some root => new origin size root
              | _, _ => .error (.other "malformed checkpoint")

def render (checkpoint : Checkpoint) : Text :=
  checkpoint.origin ++ ['\n'] ++ decimal checkpoint.size ++ ['\n'] ++
    Base64.encode checkpoint.root.bytes ++ ['\n']

theorem new_ok {origin : Text} {size : UInt64} {root : Hash} {checkpoint : Checkpoint}
    (built : new origin size root = .ok checkpoint) :
    checkpoint.origin = origin ∧ checkpoint.size = size ∧ checkpoint.root = root := by
  rw [new] at built
  split_ifs at built
  cases built
  exact ⟨rfl, rfl, rfl⟩

theorem new_parts (checkpoint : Checkpoint) :
    new checkpoint.origin checkpoint.size checkpoint.root = .ok checkpoint :=
  dif_pos checkpoint.named

theorem parse_render (checkpoint : Checkpoint) : parse (render checkpoint) = .ok checkpoint := by
  have digits := decimal_single checkpoint.size
  have root : '\n' ∉ Base64.encode checkpoint.root.bytes := Note.encode_clean (by decide)
  have first := Strings.splitOnce_append checkpoint.named.2
    (decimal checkpoint.size ++ '\n' :: (Base64.encode checkpoint.root.bytes ++ ['\n']))
  have second := Strings.splitOnce_append digits
    (Base64.encode checkpoint.root.bytes ++ ['\n'])
  have third := Strings.splitOnce_append root []
  have size : parseSize (decimal checkpoint.size) = some checkpoint.size := by
    have value : Nat.ofDigitChars 10 (decimal checkpoint.size) 0 = checkpoint.size.toNat :=
      Nat.ofDigitChars_ten_toDigits
    simp [parseSize, value]
  have decoded : parseRoot (Base64.encode checkpoint.root.bytes) = some checkpoint.root := by
    have bytes : Base64.decode (Base64.encode checkpoint.root.bytes) =
        .ok checkpoint.root.bytes := (base64_canonical.decode_iff _ _).mpr rfl
    simp only [parseRoot, bytes, checkpoint.root.length_eq, dif_pos]
  have whole : render checkpoint = checkpoint.origin ++ '\n' :: (decimal checkpoint.size ++
      '\n' :: (Base64.encode checkpoint.root.bytes ++ ['\n'])) := by
    simp [render]
  rw [whole]
  simp only [parse, first, second, third, size, decoded]
  exact new_parts checkpoint

end Checkpoint

section Keys

/-- A key, by the name it signs under and its seed. -/
structure Key where
  name : Text
  seed : Hash
  deriving DecidableEq

/-- The four bytes a signature starts with. -/
def keyId (algorithm : UInt8) (key : Key) : List UInt8 :=
  (Sha256.hash (Utf8.encode key.name ++ [10, algorithm] ++ key.seed.bytes)).bytes.take 4

def signatureBytes (algorithm : UInt8) (key : Key) (message : Text) : List UInt8 :=
  keyId algorithm key ++ (Sha256.hash (key.seed.bytes ++ Utf8.encode message)).bytes

def sign (key : Key) (named : Note.IsName key.name) (text : Text) : Note.Signature :=
  ⟨key.name, named, signatureBytes 1 key text⟩

def names (key : Key) (signature : Note.Signature) : Bool :=
  signature.name = key.name ∧ signature.blob.take 4 = keyId 1 key

def verifies (key : Key) (text : Text) (signature : Note.Signature) : Bool :=
  signature.blob = signatureBytes 1 key text

/-- A timestamped signature of a text. -/
def cosign (algorithm : UInt8) (text name : Text) (seed : Hash) (timestamp : UInt64) :
    Except LogError Note.Signature :=
  if named : Note.IsName name then
    let bytes := (List.range 8).reverse.map fun index =>
      UInt8.ofNat (timestamp.toNat / 256 ^ index)
    let message := "cosignature/v1\ntime ".toList ++ decimal timestamp ++ ['\n'] ++ text
    .ok ⟨name, named, keyId algorithm ⟨name, seed⟩ ++ bytes ++
      (Sha256.hash (seed.bytes ++ Utf8.encode message)).bytes⟩
  else .error (.other "malformed key name")

def verify (note : Note.SignedNote) (trusted : List Key) :
    Except LogError (List Note.Signature) :=
  if note.signatures.any fun signature => trusted.any fun key =>
      names key signature && !verifies key note.text signature then .error .invalidSignature
  else
    match note.signatures.filter fun signature => trusted.any fun key => names key signature with
    | [] => .error (.other "no signature from a known key")
    | signature :: others => .ok (signature :: others)

variable {note : Note.SignedNote} {trusted : List Key}

theorem forged_iff :
    (note.signatures.any fun signature => trusted.any fun key =>
        names key signature && !verifies key note.text signature) = true ↔
      ∃ signature ∈ note.signatures, ∃ key ∈ trusted,
        names key signature = true ∧ verifies key note.text signature = false := by
  simp [List.any_eq_true]

theorem verify_forged (forged : ∃ signature ∈ note.signatures, ∃ key ∈ trusted,
    names key signature = true ∧ verifies key note.text signature = false) :
    verify note trusted = .error .invalidSignature := if_pos (forged_iff.mpr forged)

theorem verify_unknown
    (unknown : ∀ signature ∈ note.signatures, ∀ key ∈ trusted, names key signature = false) :
    verify note trusted = .error (.other "no signature from a known key") := by
  have unforged : ¬ ∃ signature ∈ note.signatures, ∃ key ∈ trusted,
      names key signature = true ∧ verifies key note.text signature = false := by
    intro forged
    rcases forged with ⟨signature, member, key, trustedKey, named, _⟩
    rw [unknown signature member key trustedKey] at named
    cases named
  have none : (note.signatures.filter fun signature => trusted.any fun key =>
      names key signature) = [] := by
    rw [List.filter_eq_nil_iff]
    intro signature member
    rw [Bool.not_eq_true, List.any_eq_false]
    intro key trustedKey
    rw [unknown signature member key trustedKey]
    decide
  rw [verify]
  rw [if_neg (forged_iff.not.mpr unforged), none]

theorem verify_genuine
    (unforged : ¬ ∃ signature ∈ note.signatures, ∃ key ∈ trusted,
      names key signature = true ∧ verifies key note.text signature = false)
    (known : ¬ ∀ signature ∈ note.signatures, ∀ key ∈ trusted, names key signature = false) :
    ∃ verified, verify note trusted = .ok verified ∧ verified ≠ [] ∧
      ∀ signature ∈ verified, signature ∈ note.signatures ∧
        ∃ key ∈ trusted, names key signature = true ∧
          verifies key note.text signature = true := by
  cases kept : note.signatures.filter fun signature => trusted.any fun key =>
      names key signature with
  | nil =>
      refine absurd ?_ known
      intro signature member key trustedKey
      have dropped := List.filter_eq_nil_iff.mp kept signature member
      rw [Bool.not_eq_true, List.any_eq_false] at dropped
      exact Bool.eq_false_iff.mpr (dropped key trustedKey)
  | cons first others =>
      refine ⟨first :: others, ?_, by simp, ?_⟩
      · rw [verify]
        rw [if_neg (forged_iff.not.mpr unforged), kept]
      · intro signature member
        rw [← kept] at member
        have inside := (List.mem_filter.mp member).1
        have some := (List.mem_filter.mp member).2
        obtain ⟨key, trustedKey, named⟩ := List.any_eq_true.mp some
        refine ⟨inside, key, trustedKey, named, ?_⟩
        by_contra unverified
        exact unforged
          ⟨signature, inside, key, trustedKey, named, Bool.eq_false_iff.mpr unverified⟩

end Keys

section Consistency

variable (entries : Nat → List UInt8)

def verifyConsistency (old new : Checkpoint) (proof : List Hash) : Except LogError Unit :=
  if old.size = new.size then
    if proof ≠ [] then .error (.other "proof at equal sizes")
    else if old.root ≠ new.root then .error .rootMismatch
    else .ok ()
  else if old.size < new.size ∧
      old.root = (treeHead storeCrates entries old.size).root ∧
      new.root = (treeHead storeCrates entries new.size).root ∧
      proof = treeProof storeCrates entries old.size new.size then .ok ()
  else .error (.other "proof does not verify")

@[reducible] def log : MetamorphicLog where
  Checkpoint := Checkpoint
  SignedNote := Note.SignedNote
  Signature := Note.Signature
  VerifierKey := Key
  keyEq := inferInstance
  parseCheckpoint := Checkpoint.parse
  newCheckpoint := Checkpoint.new
  origin := Checkpoint.origin
  size := Checkpoint.size
  rootHash := Checkpoint.root
  verifyConsistency := verifyConsistency entries
  emptyRoot := Sha256.hash []
  parseNote := Note.parse
  newNote := Note.new
  text := Note.SignedNote.text
  signatures := Note.SignedNote.signatures
  marshal := Note.marshal
  marshalLine := Note.marshalLine
  verify := verify
  signEd25519 := cosign 4
  signMldsa44 := cosign 6
  display := fun error =>
    match error with
    | .invalidSignature => "invalid signature"
    | .rootMismatch => "root mismatch"
    | .other message => message
  names := names
  verifies := verifies

@[reducible] def crates : WitnessCrates where
  toStoreCrates := storeCrates
  log := log entries

theorem log_verify (note : Note.SignedNote) (trusted : List Key) :
    (log entries).verify note trusted = verify note trusted := rfl

/-- Heads of the tree, and the empty head below every other. -/
def Extends (old new : Head) : Prop :=
  new = old ∨ (old = ⟨0, Sha256.hash []⟩ ∧ 0 < new.size) ∨
    (old.size < new.size ∧ old = treeHead storeCrates entries old.size ∧
      new = treeHead storeCrates entries new.size)

theorem noteLaws : (log entries).NoteLaws where
  parse_marshal := by
    intro text signatures note parsed framed read
    exact Except.ok.inj (read.symm.trans (Note.parse_marshal note))
  new_text := by
    intro text signatures note framed
    exact Note.new_ok framed
  marshal_lines := by
    intro text signatures note framed
    obtain ⟨rfl, rfl⟩ := Note.new_ok framed
    rfl
  line_single := Note.marshalLine_single

theorem roundTrips (limit : Nat) : (log entries).RoundTrips limit := by
  intro text signatures note framed small
  exact Note.parse_marshal note

theorem newNoteAccepts : (log entries).NewNoteAccepts := by
  intro source note signatures parsed signed
  exact ⟨_, dif_pos ⟨note.ended, signed⟩⟩

theorem verifyLaws : (log entries).VerifyLaws where
  forged := fun _ _ forged => verify_forged forged
  unknown := fun _ _ unknown => ⟨_, verify_unknown unknown⟩
  genuine := fun _ _ unforged known => verify_genuine unforged known

theorem checkpointLaws : (log entries).CheckpointLaws where
  new_parts := by
    intro origin size root checkpoint built
    obtain ⟨named, sized, rooted⟩ := Checkpoint.new_ok built
    exact ⟨named, Head.ext sized rooted⟩
  new_parsed := by
    intro text checkpoint parsed
    exact ⟨checkpoint, Checkpoint.new_parts checkpoint⟩

theorem verifyConsistency_ok {old new : Checkpoint} {proof : List Hash}
    (verified : verifyConsistency entries old new proof = .ok ()) :
    Extends entries ⟨old.size, old.root⟩ ⟨new.size, new.root⟩ := by
  rw [verifyConsistency] at verified
  split_ifs at verified with sizes proofs roots grown
  · have root : old.root = new.root := not_not.mp roots
    exact Or.inl (Head.ext sizes.symm root.symm)
  · rcases grown with ⟨larger, oldRoot, newRoot, -⟩
    exact Or.inr (Or.inr ⟨larger, Head.ext rfl oldRoot, Head.ext rfl newRoot⟩)

theorem consistencyLaws : (log entries).ConsistencyLaws (Extends entries) where
  sound := by
    intro old new proof verified
    exact verifyConsistency_ok entries verified
  trans := by
    intro first second third before after
    rcases before with rfl | ⟨empty, positive⟩ | ⟨larger, tree, next⟩
    · exact after
    · rcases after with rfl | ⟨rfl, -⟩ | ⟨larger, -, -⟩
      · exact Or.inr (Or.inl ⟨empty, positive⟩)
      · exact absurd positive (by decide)
      · exact Or.inr (Or.inl ⟨empty, UInt64.lt_trans positive larger⟩)
    · rcases after with rfl | ⟨rfl, -⟩ | ⟨larger', -, next'⟩
      · exact Or.inr (Or.inr ⟨larger, tree, next⟩)
      · exact absurd larger (UInt64.not_lt.mpr (UInt64.zero_le))
      · exact Or.inr (Or.inr ⟨UInt64.lt_trans larger larger', tree, next'⟩)
  same_size := by
    intro first second extends_ same
    rcases extends_ with rfl | ⟨rfl, positive⟩ | ⟨larger, -, -⟩
    · rfl
    · rw [← same] at positive
      exact absurd positive (by decide)
    · rw [same] at larger
      exact absurd larger (UInt64.lt_irrefl _)
  empty := by
    intro second rooted
    by_cases positive : 0 < second.size
    · exact Or.inr (Or.inl ⟨rfl, positive⟩)
    · have zero : second.size = 0 := UInt64.le_zero_iff.mp (UInt64.not_lt.mp positive)
      exact Or.inl (Head.ext zero (rooted zero))

theorem rejectsFork : (log entries).RejectsFork := by
  intro old new proof sizes roots verified
  have accepted : verifyConsistency entries old new proof = .ok () := verified
  have sizes' : Checkpoint.size old = Checkpoint.size new := sizes
  have roots' : Checkpoint.root old ≠ Checkpoint.root new := roots
  rw [verifyConsistency, if_pos sizes', if_pos roots'] at accepted
  split_ifs at accepted

theorem acceptsProofs : AcceptsProofs (crates entries) entries := by
  intro old new size size' _ oldHead newHead _ ordered
  change verifyConsistency entries old new _ = .ok ()
  have oldSize : Checkpoint.size old = size := congrArg Head.size oldHead
  have newSize : Checkpoint.size new = size' := congrArg Head.size newHead
  have oldRoot : Checkpoint.root old = (treeHead storeCrates entries size).root :=
    congrArg Head.root oldHead
  have newRoot : Checkpoint.root new = (treeHead storeCrates entries size').root :=
    congrArg Head.root newHead
  rw [verifyConsistency]
  by_cases same : size = size'
  · subst same
    have sizes : Checkpoint.size old = Checkpoint.size new := oldSize.trans newSize.symm
    have roots : Checkpoint.root old = Checkpoint.root new := oldRoot.trans newRoot.symm
    have proof : treeProof storeCrates entries size size = [] := treeProof_self _ _ _
    rw [if_pos sizes, if_neg (not_not.mpr roots)]
    exact if_neg (not_not.mpr proof)
  · have larger : size < size' := UInt64.lt_of_le_of_ne ordered same
    have grown : Checkpoint.size old < Checkpoint.size new ∧
        Checkpoint.root old = (treeHead storeCrates entries (Checkpoint.size old)).root ∧
        Checkpoint.root new = (treeHead storeCrates entries (Checkpoint.size new)).root ∧
        treeProof storeCrates entries size size' =
          treeProof storeCrates entries (Checkpoint.size old) (Checkpoint.size new) := by
      rw [oldSize, newSize]
      exact ⟨larger, oldRoot, newRoot, rfl⟩
    have apart : Checkpoint.size old ≠ Checkpoint.size new := by
      rw [oldSize, newSize]
      exact same
    rw [if_neg apart]
    exact if_pos grown

theorem signersSucceed {name origin : Text} (named : Note.IsName name)
    (ed25519 mldsa44 : Hash) : (log entries).SignersSucceed name ed25519 mldsa44 origin := by
  intro text checkpoint timestamp read origins timed
  exact ⟨⟨_, dif_pos named⟩, _, dif_pos named⟩

theorem cosign_timeless {algorithm : UInt8} {text name : Text} {seed : Hash}
    {timestamp timestamp' : UInt64} {e : LogError}
    (failed : cosign algorithm text name seed timestamp = .error e) :
    cosign algorithm text name seed timestamp' = .error e := by
  unfold cosign at failed ⊢
  split at failed
  · cases failed
  · rename_i unnamed
    rw [dif_neg unnamed]
    exact failed

theorem signersTimeless : (log entries).SignersTimeless where
  ed25519 := fun _ _ _ _ _ _ _ _ failed => cosign_timeless failed
  mldsa44 := fun _ _ _ _ _ _ _ _ failed => cosign_timeless failed

end Consistency

end MosskeysWitness.Reference
