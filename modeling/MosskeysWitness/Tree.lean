import MosskeysWitness.Witness
import MosskeysWitness.Library.Merkle

/-! The append-only tree of a log, its heads and its consistency proofs, and what the witness
makes of a request that extends the stored head along it. -/

namespace MosskeysWitness

open MetamorphicLog (Head)

variable {crates : WitnessCrates} {identity : Identity}

section Tree

def hasher (crates : StoreCrates) : Merkle.Hasher (List UInt8) Hash where
  empty := crates.sha256 []
  leaf := fun entry => crates.sha256 (0 :: entry)
  node := fun left right => crates.sha256 (1 :: (left.bytes ++ right.bytes))

/-- An append-only log, as the sequence of all its entries, and the tree over the first `size`
of them. -/
def treeOf (entries : Nat → List UInt8) (size : UInt64) : List (List UInt8) :=
  (List.range size.toNat).map entries

def treeHead (crates : StoreCrates) (entries : Nat → List UInt8) (size : UInt64) : Head :=
  ⟨size, Merkle.root (hasher crates) (treeOf entries size)⟩

/-- The proof lines of a request from `old` to `new`: none at old size 0. -/
def treeProof (crates : StoreCrates) (entries : Nat → List UInt8) (old new : UInt64) : List Hash :=
  if old = 0 then []
  else Merkle.consistencyProof (hasher crates) old.toNat (treeOf entries new)

theorem treeProof_self (crates : StoreCrates) (entries : Nat → List UInt8) (size : UInt64) :
    treeProof crates entries size size = [] := by
  rw [treeProof]
  split
  · rfl
  · have length : (treeOf entries size).length = size.toNat := by simp [treeOf]
    have empty := Merkle.consistencyProof_self (hasher crates) (treeOf entries size)
    rwa [length] at empty

theorem treeProof_fits (crates : StoreCrates) (entries : Nat → List UInt8) (old : UInt64)
    {size : UInt64} (small : size.toNat ≤ 2 ^ 62) :
    (treeProof crates entries old size).length ≤ maxProofLines := by
  rw [treeProof]
  split
  · simp
  · have lines := Merkle.consistencyProof_length (hasher crates) old.toNat (treeOf entries size)
    have length : (treeOf entries size).length = size.toNat := by simp [treeOf]
    have height : Nat.clog 2 size.toNat ≤ 62 := Nat.clog_le_of_le_pow small
    rw [length] at lines
    calc
      _ ≤ Nat.clog 2 size.toNat + 1 := lines
      _ ≤ maxProofLines := Nat.succ_le_succ height

theorem treeHead_zero (crates : StoreCrates) (entries : Nat → List UInt8) :
    treeHead crates entries 0 = ⟨0, crates.sha256 []⟩ := by
  simp [treeHead, treeOf, hasher]

end Tree

/-- `verify_consistency` accepts the consistency proofs of the tree. -/
def AcceptsProofs (crates : WitnessCrates) (entries : Nat → List UInt8) : Prop :=
  ∀ old new size size', crates.log.origin old = crates.log.origin new →
    crates.log.head old = treeHead crates.toStoreCrates entries size →
    crates.log.head new = treeHead crates.toStoreCrates entries size' → 0 < size →
    size ≤ size' →
    crates.log.verifyConsistency old new (treeProof crates.toStoreCrates entries size size') =
      .ok ()

structure SignedCheckpoint (crates : WitnessCrates) (entries : Nat → List UInt8) (origin : Text)
    (trusted : List crates.log.VerifierKey) (noteText : Text) (size : UInt64) where
  note : crates.log.SignedNote
  checkpoint : crates.log.Checkpoint
  verified : List crates.log.Signature
  ended : noteText.getLast? = some '\n'
  parsed : crates.log.parseNote noteText = .ok note
  read : crates.log.parseCheckpoint (crates.log.text note) = .ok checkpoint
  named : crates.log.origin checkpoint = origin
  head : crates.log.head checkpoint = treeHead crates.toStoreCrates entries size
  signed : crates.log.verify note trusted = .ok verified

section Approval

variable {entries : Nat → List UInt8} {current : Option LogState}

/-- The stored head of the log's origin, where there is one, is a head of the tree, and the
witness can rebuild its checkpoint. -/
def StoresTree (crates : WitnessCrates) (entries : Nat → List UInt8) (origin : Text)
    (current : Option LogState) : Prop :=
  ∀ state, current = some state →
    state.head = treeHead crates.toStoreCrates entries state.size ∧
      ∃ checkpoint, crates.log.newCheckpoint origin state.size state.root = .ok checkpoint

theorem honest_consistent {vetted : Vetted crates}
    (checkpoints : crates.log.CheckpointLaws) (accepts : AcceptsProofs crates entries)
    (stored : StoresTree crates entries vetted.origin current)
    (latest : vetted.oldSize = latestSize current)
    (head : crates.log.head vetted.request.checkpoint =
      treeHead crates.toStoreCrates entries vetted.newSize)
    (proof : vetted.proof =
      treeProof crates.toStoreCrates entries vetted.oldSize vetted.newSize) :
    checkConsistency vetted current = .ok () := by
  apply checkConsistency_of_verifies latest
  intro state held later
  obtain ⟨storedHead, checkpoint, built⟩ := stored state held
  have named := (checkpoints.new_parts _ _ _ _ built).1
  have parts := (checkpoints.new_parts _ _ _ _ built).2
  have size : state.size = vetted.oldSize := by rw [latest, held, latestSize]
  have old : crates.log.head checkpoint =
      treeHead crates.toStoreCrates entries vetted.oldSize := by
    rw [parts, ← size, ← storedHead]
    rfl
  have verified := accepts checkpoint vetted.request.checkpoint vetted.oldSize
    vetted.newSize named old head later vetted.ordered
  rw [← proof] at verified
  exact ⟨checkpoint, built, verified⟩

theorem honest_settled (vetted : Vetted crates) (notes : crates.log.NewNoteAccepts)
    (checkpoints : crates.log.CheckpointLaws)
    (signers : crates.log.SignersSucceed identity.name identity.ed25519.seed
      identity.mldsa44.seed vetted.origin)
    (emptyTree : crates.log.emptyRoot = crates.sha256 [])
    (accepts : AcceptsProofs crates entries)
    (stored : StoresTree crates entries vetted.origin current)
    (latest : vetted.oldSize = latestSize current)
    (head : crates.log.head vetted.request.checkpoint =
      treeHead crates.toStoreCrates entries vetted.newSize)
    (proof : vetted.proof =
      treeProof crates.toStoreCrates entries vetted.oldSize vetted.newSize)
    {timestamp : UInt64} (timed : timestamp ≠ 0) :
    ∃ state body, settle identity vetted timestamp current = .ok (state, body) := by
  have emptyRoot : vetted.newSize = 0 → vetted.newRoot = crates.log.emptyRoot := by
    intro zero
    calc
      vetted.newRoot = (treeHead crates.toStoreCrates entries vetted.newSize).root :=
        congrArg Head.root head
      _ = crates.sha256 [] := by rw [zero, treeHead_zero]
      _ = crates.log.emptyRoot := emptyTree.symm
  have noProof : vetted.oldSize = 0 → vetted.proof = [] := by
    intro zero
    rw [proof, zero, treeProof, if_pos rfl]
  have consistent := honest_consistent checkpoints accepts stored latest head proof
  exact settle_succeeds signers notes timed latest emptyRoot noProof consistent

end Approval

end MosskeysWitness
