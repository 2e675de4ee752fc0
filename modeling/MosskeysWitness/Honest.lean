import MosskeysWitness.StoredNote
import MosskeysWitness.Tree

/-! A log that signs the checkpoints of one append-only tree is never wedged: whatever other
clients do, the stored head is one of its own, and its next request is accepted. -/

namespace MosskeysWitness

open MetamorphicLog (Head)

variable {crates : WitnessCrates} {identity : Identity}

/-- The keys trusted for `origin` have signed checkpoints of the tree only: every request of the
run that a trusted key's signature brought past the signature check is for a head of it. -/
def SignsOnly (history : History crates) (origin : Text) (entries : Nat → List UInt8) : Prop :=
  ∀ id vetted, Event.vetted id vetted ∈ history → vetted.origin = origin →
    crates.log.head vetted.request.checkpoint =
      treeHead crates.toStoreCrates entries vetted.newSize

/-- In every run in which the trusted keys of `origin` sign checkpoints of one tree only, the
stored head is a head of that tree, and while the witness runs with `origin` in its allowlist,
the log's request from the stored size to any size of the tree is answered with 200. -/
theorem honest_log_never_wedged (faithful : crates.toStoreCrates.Faithful)
    (notes : crates.log.NewNoteAccepts) (checkpoints : crates.log.CheckpointLaws)
    (emptyTree : crates.log.emptyRoot = crates.sha256 []) {entries : Nat → List UInt8}
    (accepts : AcceptsProofs crates entries) {world : World crates}
    (reachable : Reachable identity world) {origin : Text}
    (signers : crates.log.SignersSucceed identity.name identity.ed25519.seed
      identity.mldsa44.seed origin)
    (honest : SignsOnly world.history origin entries) {process : Process crates}
    (up : world.machine = .up process) :
    (∀ state, process.witness.latest origin = some state →
      state.head = treeHead crates.toStoreCrates entries state.size) ∧
    ∀ trusted noteText size timestamp,
      process.witness.logs.vkeys.lookup origin = some trusted →
      SignedCheckpoint crates entries origin trusted noteText size →
      latestSize (process.witness.latest origin) ≤ size →
      (treeProof crates.toStoreCrates entries (latestSize (process.witness.latest origin))
        size).length ≤ maxProofLines →
      timestamp ≠ 0 →
      (addCheckpointResponse (process.witness.addCheckpoint
        (renderRequest crates (latestSize (process.witness.latest origin))
          (treeProof crates.toStoreCrates entries (latestSize (process.witness.latest origin)) size)
          noteText) (some timestamp) none).1).status = 200 := by
  have sound := sound_of_reachable faithful reachable
  have identified : process.witness.toIdentity = identity := by
    have durable := sound.durable
    rw [up] at durable
    exact durable.1
  have stored : StoresTree crates entries origin (process.witness.latest origin) := by
    intro state found
    obtain ⟨latest, commit, earlier, -, rfl, explains, accepted⟩ := sound.stored_commit up found
    have cosigned := (commit_settled explains).cosigned
    have named := latestCommitted_origin latest
    have head := honest commit.id commit.vetted accepted (cosigned.origin.symm.trans named)
    rw [cosigned.head, ← cosigned.size] at head
    have builds := cosigned.checkpoint_builds checkpoints
    rw [named] at builds
    exact ⟨head, builds⟩
  refine ⟨fun state found => (stored state found).1, ?_⟩
  intro trusted noteText size timestamp held signed ordered fits timed
  rcases signed with ⟨note, checkpoint, verified, ended, parsed, read, rfl, head, checked⟩
  have newSize : crates.log.size checkpoint = size := congrArg Head.size head
  subst newSize
  have request := parseRequest_render faithful.base64
    (latestSize (process.witness.latest (crates.log.origin checkpoint))) ⟨_, fits⟩ ended parsed read
  have passed := vet_accepts request held checked ordered
  let vetted : Vetted crates :=
    ⟨⟨_, ⟨_, fits⟩, note, checkpoint, ⟨noteText, parsed⟩, read⟩, process.witness.logs, trusted,
      verified, held, checked, ordered⟩
  obtain ⟨state, body, approved⟩ := honest_settled vetted notes checkpoints signers emptyTree
    accepts stored rfl head rfl timed
  rw [← identified] at approved
  rw [addCheckpoint_ok faithful timed passed approved]
  rfl

theorem next_checkpoint_accepted : ∃ (world : World Reference.witnessCrates)
    (process : Process Reference.witnessCrates),
    Reachable Reference.identity world ∧ world.machine = .up process ∧
      latestSize (process.witness.latest Reference.origin) = 1 ∧
      (addCheckpointResponse
        (process.witness.addCheckpoint (Reference.body 1 2) (some 300) none).1).status = 200 := by
  obtain ⟨witness, commit, idle, extended, latest⟩ := Reference.one_record
  have size : latestSize (witness.latest Reference.origin) = 1 := by
    rw [latest]
    exact congrArg Head.size extended.head
  have honest : SignsOnly (Reference.exchange commit) Reference.origin Reference.entries := by
    intro id vetted member _
    have same : vetted = commit.vetted := by
      simp [Reference.exchange] at member
      exact member.2
    rw [same, Vetted.newSize, extended.requested]
    rfl
  obtain ⟨_, accepted⟩ := honest_log_never_wedged Reference.storeCrates_faithful
    (Reference.newNoteAccepts Reference.entries) (Reference.checkpointLaws Reference.entries)
    rfl (Reference.acceptsProofs Reference.entries) idle.reachable
    (Reference.signersSucceed Reference.entries (by decide) _ _) honest rfl
  have answered := accepted [Reference.logKey] _ 2 300 idle.held (Reference.signedCheckpoint 2)
  rw [size] at answered
  refine ⟨_, ⟨witness, [], []⟩, idle.reachable, rfl, size, ?_⟩
  exact answered (by decide) (treeProof_fits _ _ _ (by decide)) (by decide)

end MosskeysWitness
