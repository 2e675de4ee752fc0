import MosskeysWitness.Reference.Run

/-! A log that signs a checkpoint beside its tree. -/

namespace MosskeysWitness.Reference

def strayRoot (root : Hash) : Hash :=
  ⟨root.bytes.map (· + 1), by rw [List.length_map, root.length_eq]⟩

theorem strayRoot_ne (root : Hash) : strayRoot root ≠ root := by
  intro same
  have bytes : root.bytes.map (· + 1) = root.bytes := congrArg Hash.bytes same
  have filled := root.length_eq
  cases shape : root.bytes with
  | nil =>
      rw [shape] at filled
      cases filled
  | cons byte rest =>
      rw [shape, List.map_cons, List.cons.injEq] at bytes
      have grown := congrArg UInt8.toNat bytes.1
      rw [UInt8.toNat_add] at grown
      have one : (1 : UInt8).toNat = 1 := rfl
      omega

/-- A root at `size` that the tree does not have there. -/
def strayCheckpoint (size : UInt64) : Checkpoint :=
  ⟨origin, size, strayRoot (treeHead storeCrates entries size).root, isOrigin_origin⟩

def strayNote (size : UInt64) : Note.SignedNote :=
  shownNote logKey isName_logKey (strayCheckpoint size)

variable {logs : Allowlist witnessCrates}

theorem noProof_fits : ([] : List Hash).length ≤ maxProofLines := Nat.zero_le _

/-- The log's request for its stray checkpoint, once it is vetted. -/
def stray (held : logs.vkeys.lookup origin = some [logKey]) {old size : UInt64}
    (ordered : old ≤ size) : Vetted witnessCrates :=
  shown isName_logKey (show logs.vkeys.lookup (strayCheckpoint size).origin = _ from held) ordered
    ⟨[], noProof_fits⟩

theorem vet_stray (held : logs.vkeys.lookup origin = some [logKey]) {old size : UInt64}
    (ordered : old ≤ size) :
    vet witnessCrates logs (renderRequest witnessCrates old [] (Note.marshal (strayNote size))) =
      .ok (stray held ordered) := vet_shown held ordered ⟨[], noProof_fits⟩

end MosskeysWitness.Reference
