import MosskeysWitness.StoredNote

/-! The status taxonomy: which rejection a request gets when several apply, and that a
rejection leaves no trace. -/

namespace MosskeysWitness

open MetamorphicLog (Head)

variable {crates : WitnessCrates} {identity : Identity}

/-- The rows of the taxonomy, in the order they are evaluated. -/
inductive Row where
  | malformed
  | unknownOrigin
  | badSignature
  | oldSizeExceeds
  | conflict
  | emptySizeRoot
  | zeroOldProof
  | inconsistent
  deriving DecidableEq

namespace Row

def rank : Row → Nat
  | malformed => 0
  | unknownOrigin => 1
  | badSignature => 2
  | oldSizeExceeds => 3
  | conflict => 4
  | emptySizeRoot => 5
  | zeroOldProof => 6
  | inconsistent => 7

def status : Row → UInt16
  | malformed | oldSizeExceeds => 400
  | unknownOrigin => 404
  | badSignature => 403
  | conflict => 409
  | emptySizeRoot | zeroOldProof | inconsistent => 422

end Row

def ProofVerifies (request : ParsedRequest crates) (stored : LogState) : Prop :=
  ∃ old, crates.log.newCheckpoint (crates.log.origin request.checkpoint) stored.size stored.root =
      .ok old ∧
    crates.log.verifyConsistency old request.checkpoint request.proof.val = .ok ()

/-- What the row says of a well-formed request, against the allowlist and the stored state. -/
def Violates (logs : Allowlist crates) (current : Option LogState)
    (request : ParsedRequest crates) : Row → Prop
  | .malformed => False
  | .unknownOrigin => logs.vkeys.lookup (crates.log.origin request.checkpoint) = none
  | .badSignature =>
      ∃ trusted, logs.vkeys.lookup (crates.log.origin request.checkpoint) = some trusted ∧
        (crates.log.Forged request.note trusted ∨ crates.log.Unknown request.note trusted)
  | .oldSizeExceeds => crates.log.size request.checkpoint < request.oldSize
  | .conflict => request.oldSize ≠ latestSize current
  | .emptySizeRoot =>
      crates.log.size request.checkpoint = 0 ∧
        crates.log.rootHash request.checkpoint ≠ crates.log.emptyRoot
  | .zeroOldProof => request.oldSize = 0 ∧ request.proof.val ≠ []
  | .inconsistent =>
      ∃ stored, current = some stored ∧
        ((stored.size = crates.log.size request.checkpoint ∧
            stored.root ≠ crates.log.rootHash request.checkpoint) ∨
          (0 < stored.size ∧ ¬ ProofVerifies request stored))

def Applies (witness : Witness crates) (body : Text) (row : Row) : Prop :=
  match parseRequest crates body with
  | .error _ => row = .malformed
  | .ok request =>
      Violates witness.logs (witness.latest (crates.log.origin request.checkpoint)) request row

def FirstRow (witness : Witness crates) (body : Text) (row : Row) : Prop :=
  Applies witness body row ∧ ∀ earlier, earlier.rank < row.rank → ¬ Applies witness body earlier

theorem exists_firstRow {witness : Witness crates} {body : Text} {row : Row}
    (applies : Applies witness body row) : ∃ first, FirstRow witness body first := by
  obtain ⟨first, firstApplies, least⟩ :=
    (measure Row.rank).wf.has_min {row | Applies witness body row} ⟨row, applies⟩
  exact ⟨first, firstApplies, fun earlier before holds => least earlier holds before⟩

section Settle

/-- What holds of the stored state of the request's origin in every reachable state. -/
structure Sane (crates : WitnessCrates) (origin : Text) (current : Option LogState) : Prop where
  builds : ∀ state, current = some state →
    ∃ checkpoint, crates.log.newCheckpoint origin state.size state.root = .ok checkpoint
  rooted : ∀ state, current = some state → state.size = 0 → state.root = crates.log.emptyRoot

variable {vetted : Vetted crates} {current : Option LogState} {timestamp : UInt64}

theorem checkConsistency_rejects (sane : Sane crates vetted.origin current)
    (latest : vetted.oldSize = latestSize current) :
    checkConsistency vetted current = .ok () ∨
      ∃ reject, checkConsistency vetted current = .error (.rejected reject) ∧
        reject.status = 422 := by
  unfold checkConsistency
  by_cases later : 0 < vetted.oldSize
  · rw [if_pos later]
    cases current with
    | none =>
        rw [latest] at later
        exact absurd later (by decide)
    | some state =>
        obtain ⟨checkpoint, built⟩ := sane.builds state rfl
        dsimp only
        rw [built]
        dsimp only
        split
        · exact Or.inl rfl
        · split_ifs
          · exact Or.inr ⟨.sameSizeRootMismatch, rfl, rfl⟩
          · exact Or.inr ⟨.consistencyProofFailed, rfl, rfl⟩
  · rw [if_neg later]
    exact Or.inl rfl

theorem checkConsistency_ok_iff (checkpoints : crates.log.CheckpointLaws)
    (forks : crates.log.RejectsFork) (sane : Sane crates vetted.origin current)
    (latest : vetted.oldSize = latestSize current)
    (emptyRoot : vetted.newSize = 0 → vetted.newRoot = crates.log.emptyRoot) :
    checkConsistency vetted current = .ok () ↔
      ¬ Violates vetted.snapshot current vetted.request .inconsistent := by
  constructor
  · intro passed violates
    rcases violates with ⟨state, rfl, reasons⟩
    have old : vetted.oldSize = state.size := latest
    rcases reasons with ⟨size, root⟩ | ⟨positive, unverified⟩
    · by_cases later : 0 < vetted.oldSize
      · obtain ⟨stored, checkpoint, same, built, verified⟩ := checkConsistency_ok passed later
        cases same
        obtain ⟨-, head⟩ := checkpoints.new_parts _ _ _ _ built
        have sizes : crates.log.size checkpoint = crates.log.size vetted.request.checkpoint :=
          (congrArg Head.size head).trans size
        have roots : crates.log.rootHash checkpoint ≠
            crates.log.rootHash vetted.request.checkpoint := by
          intro equal
          exact root ((congrArg Head.root head).symm.trans equal)
        exact forks checkpoint vetted.request.checkpoint _ sizes roots verified
      · -- both heads are of size 0, where only the empty root gets this far
        have zero : state.size = 0 := by
          rw [← old]
          exact UInt64.le_zero_iff.mp (UInt64.not_lt.mp later)
        have stored := sane.rooted state rfl zero
        have fresh := emptyRoot (size.symm.trans zero)
        exact root (stored.trans fresh.symm)
    · obtain ⟨stored, checkpoint, same, built, verified⟩ :=
        checkConsistency_ok passed (old ▸ positive)
      cases same
      exact unverified ⟨checkpoint, built, verified⟩
  · intro holds
    apply checkConsistency_of_verifies latest
    intro state held later
    have old : vetted.oldSize = state.size := by rw [latest, held, latestSize]
    have verifies : ProofVerifies vetted.request state := by
      by_contra unverified
      exact holds ⟨state, held, Or.inr ⟨old ▸ later, unverified⟩⟩
    exact verifies

/-- The rows that need the stored state, in their order inside the lock. -/
theorem settle_rejects (checkpoints : crates.log.CheckpointLaws)
    (forks : crates.log.RejectsFork) (sane : Sane crates vetted.origin current) {row : Row}
    (late : Row.conflict.rank ≤ row.rank)
    (violates : Violates vetted.snapshot current vetted.request row)
    (before : ∀ earlier : Row, earlier.rank < row.rank →
      ¬ Violates vetted.snapshot current vetted.request earlier) :
    ∃ reject, settle identity vetted timestamp current = .error (.rejected reject) ∧
      reject.status = row.status ∧
      (row = .conflict → reject = .sizeConflict (latestSize current)) := by
  rw [settle]
  cases row with
  | malformed | unknownOrigin | badSignature | oldSizeExceeds => exact absurd late (by decide)
  | conflict =>
      have other : vetted.oldSize ≠ latestSize current := violates
      rw [if_pos other]
      exact ⟨.sizeConflict _, rfl, rfl, fun _ => rfl⟩
  | emptySizeRoot =>
      have latest : ¬ vetted.oldSize ≠ latestSize current := before .conflict (by decide)
      have hollow : vetted.newSize = 0 ∧ vetted.newRoot ≠ crates.log.emptyRoot := violates
      rw [if_neg latest, if_pos hollow]
      exact ⟨.emptySizeNonEmptyRoot, rfl, rfl, by simp⟩
  | zeroOldProof =>
      have latest : ¬ vetted.oldSize ≠ latestSize current := before .conflict (by decide)
      have rooted : ¬ (vetted.newSize = 0 ∧ vetted.newRoot ≠ crates.log.emptyRoot) :=
        before .emptySizeRoot (by decide)
      have lines : vetted.oldSize = 0 ∧ vetted.proof ≠ [] := violates
      rw [if_neg latest, if_neg rooted, if_pos lines]
      exact ⟨.proofWithZeroOldSize, rfl, rfl, by simp⟩
  | inconsistent =>
      have latest : ¬ vetted.oldSize ≠ latestSize current := before .conflict (by decide)
      have rooted : ¬ (vetted.newSize = 0 ∧ vetted.newRoot ≠ crates.log.emptyRoot) :=
        before .emptySizeRoot (by decide)
      have unproved : ¬ (vetted.oldSize = 0 ∧ vetted.proof ≠ []) :=
        before .zeroOldProof (by decide)
      have same : vetted.oldSize = latestSize current := not_not.mp latest
      have emptyRoot : vetted.newSize = 0 → vetted.newRoot = crates.log.emptyRoot := by
        intro zero
        by_contra root
        exact rooted ⟨zero, root⟩
      have refused : checkConsistency vetted current ≠ .ok () := by
        intro passed
        exact (checkConsistency_ok_iff checkpoints forks sane same emptyRoot).mp passed violates
      rw [if_neg latest, if_neg rooted, if_neg unproved]
      rcases checkConsistency_rejects sane same with passed | ⟨reject, failed, status⟩
      · exact absurd passed refused
      · rw [failed]
        exact ⟨reject, rfl, status, by simp⟩

end Settle

section Outcome

theorem addCheckpoint_vet_error {witness : Witness crates} {body : Text} {error : WitnessError}
    (refused : vet crates witness.logs body = .error error) (clock : Option UInt64)
    (fault : Option AppendFault) :
    witness.addCheckpoint body clock fault = (.error error, witness) := by
  rw [Witness.addCheckpoint, refused]

theorem addCheckpoint_settle_error {witness : Witness crates} {body : Text}
    {vetted : Vetted crates} {timestamp : UInt64} {error : WitnessError} (timed : timestamp ≠ 0)
    (passed : vet crates witness.logs body = .ok vetted)
    (refused : settle witness.toIdentity vetted timestamp (witness.latest vetted.origin) =
      .error error) (fault : Option AppendFault) :
    witness.addCheckpoint body (some timestamp) fault = (.error error, witness) := by
  rw [Witness.addCheckpoint, passed]
  dsimp only
  rw [stamp_nonzero timed]
  dsimp only
  rw [submit_error fault refused]

theorem addCheckpoint_no_trace (faithful : crates.toStoreCrates.Faithful)
    {witness : Witness crates} {body : Text} {clock : Option UInt64} {error : WitnessError}
    (refused : (witness.addCheckpoint body clock none).1 = .error error) :
    (witness.addCheckpoint body clock none).2 = witness := by
  rw [Witness.addCheckpoint] at refused ⊢
  split
  · rfl
  · rename_i vetted passed
    rw [passed] at refused
    dsimp only at refused
    split
    · rfl
    · rename_i timestamp read
      rw [read] at refused
      dsimp only at refused
      cases outcome : settle witness.toIdentity vetted timestamp.val
        (witness.latest vetted.origin) with
      | error other => rw [submit_error none outcome]
      | ok approved =>
          have state := approved.1
          have response := approved.2
          rw [submit_ok faithful outcome] at refused
          cases refused

variable {witness : Witness crates} {body : Text} {request : ParsedRequest crates}

theorem signed_of_unviolated (verifier : crates.log.VerifyLaws) {current : Option LogState}
    (known : ¬ Violates witness.logs current request .unknownOrigin)
    (signed : ¬ Violates witness.logs current request .badSignature) :
    ∃ trusted verified,
      witness.logs.vkeys.lookup (crates.log.origin request.checkpoint) = some trusted ∧
        crates.log.verify request.note trusted = .ok verified := by
  obtain ⟨trusted, held⟩ := Option.ne_none_iff_exists'.mp known
  have genuine : ¬ crates.log.Forged request.note trusted := by
    intro forged
    exact signed ⟨trusted, held, Or.inl forged⟩
  have matched : ¬ crates.log.Unknown request.note trusted := by
    intro unknown
    exact signed ⟨trusted, held, Or.inr unknown⟩
  obtain ⟨verified, checked, -⟩ := verifier.genuine _ _ genuine matched
  exact ⟨trusted, verified, held, checked⟩

theorem vet_of_unviolated (verifier : crates.log.VerifyLaws) {current : Option LogState}
    (parsed : parseRequest crates body = .ok request)
    (known : ¬ Violates witness.logs current request .unknownOrigin)
    (signed : ¬ Violates witness.logs current request .badSignature)
    (ordered : ¬ Violates witness.logs current request .oldSizeExceeds) :
    ∃ vetted, vet crates witness.logs body = .ok vetted ∧ vetted.request = request ∧
      vetted.snapshot = witness.logs := by
  obtain ⟨trusted, verified, held, checked⟩ := signed_of_unviolated verifier known signed
  exact ⟨_, vet_accepts parsed held checked (UInt64.not_lt.mp ordered), rfl, rfl⟩

theorem unviolated_of_vetted (verifier : crates.log.VerifyLaws) (vetted : Vetted crates)
    (current : Option LogState) {row : Row} (early : row.rank < Row.conflict.rank) :
    ¬ Violates vetted.snapshot current vetted.request row := by
  intro violates
  have held := vetted.held
  have checked := vetted.checked
  cases row with
  | malformed => exact violates
  | unknownOrigin =>
      have missing : vetted.snapshot.vkeys.lookup _ = none := violates
      rw [missing] at held
      cases held
  | badSignature =>
      rcases violates with ⟨trusted, found, forged | unknown⟩
      · have same := held.symm.trans found
        cases same
        rw [verifier.forged _ _ forged] at checked
        cases checked
      · have same := held.symm.trans found
        cases same
        obtain ⟨message, refused⟩ := verifier.unknown _ _ unknown
        rw [refused] at checked
        cases checked
  | oldSizeExceeds => exact UInt64.not_lt.mpr vetted.ordered violates
  | conflict | emptySizeRoot | zeroOldProof | inconsistent => exact absurd early (by decide)

variable {timestamp : UInt64}

theorem rejected_of_firstRow (verifier : crates.log.VerifyLaws)
    (checkpoints : crates.log.CheckpointLaws) (forks : crates.log.RejectsFork)
    (sane : ∀ origin, Sane crates origin (witness.latest origin)) (timed : timestamp ≠ 0)
    {row : Row} (first : FirstRow witness body row) :
    ∃ reject, (witness.addCheckpoint body (some timestamp) none).1 = .error (.rejected reject) ∧
      reject.status = row.status ∧
      (row = .conflict → ∀ request, parseRequest crates body = .ok request →
        reject = .sizeConflict
          (latestSize (witness.latest (crates.log.origin request.checkpoint)))) := by
  have applies := first.1
  have before := first.2
  cases parsed : parseRequest crates body with
  | error reject =>
      simp only [Applies, parsed] at applies
      subst applies
      obtain ⟨reason, rfl⟩ := parseRequest_malformed parsed
      rw [addCheckpoint_vet_error (vet_eq (.malformed parsed))]
      exact ⟨.malformed reason, rfl, rfl, by simp⟩
  | ok request =>
      simp only [Applies, parsed] at applies before
      cases row with
      | malformed => exact absurd applies id
      | unknownOrigin =>
          rw [addCheckpoint_vet_error (vet_eq (.unknownOrigin parsed applies))]
          exact ⟨.unknownOrigin, rfl, rfl, by simp⟩
      | badSignature =>
          rcases applies with ⟨trusted, held, forged | unknown⟩
          · have refused := verifier.forged _ _ forged
            rw [addCheckpoint_vet_error (vet_eq (.unverified parsed held refused))]
            exact ⟨.invalidTrustedSignature, rfl, rfl, by simp⟩
          · obtain ⟨message, refused⟩ := verifier.unknown _ _ unknown
            rw [addCheckpoint_vet_error (vet_eq (.unverified parsed held refused))]
            exact ⟨.noTrustedSignature, rfl, rfl, by simp⟩
      | oldSizeExceeds =>
          obtain ⟨trusted, verified, held, checked⟩ := signed_of_unviolated verifier
            (before .unknownOrigin (by decide)) (before .badSignature (by decide))
          rw [addCheckpoint_vet_error (vet_eq (.exceeds parsed held checked applies))]
          exact ⟨.oldSizeExceedsCheckpoint, rfl, rfl, by simp⟩
      | conflict | emptySizeRoot | zeroOldProof | inconsistent =>
          obtain ⟨vetted, passed, rfl, snapshot⟩ := vet_of_unviolated verifier parsed
            (before .unknownOrigin (by decide)) (before .badSignature (by decide))
            (before .oldSizeExceeds (by decide))
          rw [← snapshot] at applies before
          obtain ⟨reject, refused, status, conflict⟩ :=
            settle_rejects checkpoints forks (sane vetted.origin) (by decide) applies before
          rw [addCheckpoint_settle_error timed passed refused]
          refine ⟨reject, rfl, status, ?_⟩
          intro same other equal
          cases equal
          exact conflict same

theorem accepted_of_unviolated (faithful : crates.toStoreCrates.Faithful)
    (verifier : crates.log.VerifyLaws) (checkpoints : crates.log.CheckpointLaws)
    (forks : crates.log.RejectsFork) (notes : crates.log.NewNoteAccepts)
    (signers : ∀ request, parseRequest crates body = .ok request →
      crates.log.SignersSucceed witness.name witness.ed25519.seed witness.mldsa44.seed
        (crates.log.origin request.checkpoint))
    (sane : ∀ origin, Sane crates origin (witness.latest origin)) (timed : timestamp ≠ 0)
    (none : ∀ row, ¬ Applies witness body row) :
    ∃ cosignatures, (witness.addCheckpoint body (some timestamp) .none).1 = .ok cosignatures := by
  cases parsed : parseRequest crates body with
  | error reject =>
      simp only [Applies, parsed] at none
      exact absurd rfl (none .malformed)
  | ok request =>
      simp only [Applies, parsed] at none
      obtain ⟨vetted, passed, rfl, snapshot⟩ := vet_of_unviolated verifier parsed
        (none .unknownOrigin) (none .badSignature) (none .oldSizeExceeds)
      rw [← snapshot] at none
      have latest : vetted.oldSize = latestSize (witness.latest vetted.origin) :=
        not_not.mp (none .conflict)
      have emptyRoot : vetted.newSize = 0 → vetted.newRoot = crates.log.emptyRoot := by
        intro zero
        by_contra root
        exact none .emptySizeRoot ⟨zero, root⟩
      have noProof : vetted.oldSize = 0 → vetted.proof = [] := by
        intro zero
        by_contra lines
        exact none .zeroOldProof ⟨zero, lines⟩
      have consistent := (checkConsistency_ok_iff checkpoints forks (sane vetted.origin) latest
        emptyRoot).mpr (none .inconsistent)
      have signing : crates.log.SignersSucceed witness.toIdentity.name
          witness.toIdentity.ed25519.seed witness.toIdentity.mldsa44.seed vetted.origin :=
        signers _ parsed
      obtain ⟨state, cosignatures, approved⟩ : ∃ state cosignatures,
          settle witness.toIdentity vetted timestamp (witness.latest vetted.origin) =
            .ok (state, cosignatures) :=
        settle_succeeds signing notes timed latest emptyRoot noProof consistent
      exact ⟨cosignatures, addCheckpoint_ok faithful timed passed approved⟩

end Outcome

section Runs

/-- What is stored for an origin is a head that a request got through with. -/
theorem Explained.sane (checkpoints : crates.log.CheckpointLaws) {history : History crates}
    (explained : Explained identity history) (origin : Text) :
    Sane crates origin (latestCommitted history origin) := by
  have settled : ∀ state, latestCommitted history origin = some state →
      ∃ (commit : Commit crates) (before : Option LogState), commit.state = state ∧
        Settled identity commit.vetted commit.timestamp before commit.state commit.body := by
    intro state found
    obtain ⟨commit, member, same⟩ := mem_journal.mp (LastWins.mem_of_lookup found)
    obtain ⟨later, earlier, -, explains, -⟩ := explained.of_mem (mem_commits.mp member)
    exact ⟨commit, _, same, commit_settled explains⟩
  constructor
  · intro state found
    obtain ⟨commit, before, rfl, decided⟩ := settled state found
    have builds := decided.cosigned.checkpoint_builds checkpoints
    rw [latestCommitted_origin found] at builds
    exact builds
  · intro state found zero
    obtain ⟨commit, before, rfl, decided⟩ := settled state found
    have size := decided.cosigned.size
    have root := decided.cosigned.root
    rw [root]
    exact decided.emptyRoot (size.symm.trans zero)

theorem cosign_unsigned (notes : crates.log.NewNoteAccepts) {vetted : Vetted crates}
    {timestamp : UInt64} {error : WitnessError}
    (failed : cosign identity vetted timestamp = .error error) :
    ∃ message, error = .sign message := by
  rw [cosign] at failed
  split at failed
  · cases failed
    exact ⟨_, rfl⟩
  · split at failed
    · cases failed
      exact ⟨_, rfl⟩
    · rename_i edSig _ _ mlSig _
      rcases vetted.request.wellFormed with ⟨source, parsed⟩
      rcases notes source vetted.request.note (vetted.verified ++ [edSig, mlSig]) parsed (by simp)
        with ⟨note, framed⟩
      have framed' : crates.log.newNote vetted.noteText (vetted.verified ++ [edSig, mlSig]) =
          .ok note := framed
      rw [framed'] at failed
      cases failed

theorem settle_rejected (notes : crates.log.NewNoteAccepts)
    {vetted : Vetted crates} {current : Option LogState}
    (sane : Sane crates vetted.origin current) {timestamp : UInt64} {error : WitnessError}
    (refused : settle identity vetted timestamp current = .error error) :
    (∃ reject, error = .rejected reject) ∨ ∃ message, error = .sign message := by
  rw [settle] at refused
  split_ifs at refused with other hollow unproved
  · cases refused
    exact Or.inl ⟨_, rfl⟩
  · cases refused
    exact Or.inl ⟨_, rfl⟩
  · cases refused
    exact Or.inl ⟨_, rfl⟩
  · rcases checkConsistency_rejects sane (not_not.mp other) with passed | ⟨reject, failed, -⟩
    · rw [passed] at refused
      exact Or.inr (cosign_unsigned notes refused)
    · rw [failed] at refused
      cases refused
      exact Or.inl ⟨reject, rfl⟩

/-- A request of the run was turned away with `error`, before the clock or after it. -/
def TurnedAway (history : History crates) (error : WitnessError) : Prop :=
  .refused error ∈ history ∨ ∃ id vetted, .rejected id vetted error ∈ history

theorem turnedAway_rejected (checkpoints : crates.log.CheckpointLaws)
    (notes : crates.log.NewNoteAccepts) {history : History crates}
    (explained : Explained identity history) {error : WitnessError}
    (turned : TurnedAway history error) :
    error = .clock ∨ (∃ reject, error = .rejected reject) ∨ ∃ message, error = .sign message := by
  rcases turned with early | ⟨id, vetted, late⟩
  · obtain ⟨later, earlier, -, ⟨logs, body, refused⟩, -⟩ := explained.of_mem early
    obtain ⟨reject, same, -⟩ := vet_error refused
    exact Or.inr (Or.inl ⟨reject, same⟩)
  · obtain ⟨later, earlier, -, ⟨-, reasons⟩, before⟩ := explained.of_mem late
    rcases reasons with clock | ⟨timestamp, -, refused⟩
    · exact Or.inl clock
    · exact Or.inr (settle_rejected notes (before.sane checkpoints _) refused)

end Runs

/-- In every reachable state, with any allowlist, a request is answered by the first row that
applies to it, with 200 exactly where none does. Whatever is not a 200 leaves the witness as it
was. In no run is a request turned away by the `expect` or with an internal error. -/
theorem status_taxonomy (faithful : crates.toStoreCrates.Faithful)
    (verifier : crates.log.VerifyLaws) (checkpoints : crates.log.CheckpointLaws)
    (forks : crates.log.RejectsFork) (notes : crates.log.NewNoteAccepts)
    {world : World crates} (reachable : Reachable identity world) {process : Process crates}
    (up : world.machine = .up process) (logs : Allowlist crates) (body : Text)
    (signers : ∀ request, parseRequest crates body = .ok request →
      crates.log.SignersSucceed identity.name identity.ed25519.seed identity.mldsa44.seed
        (crates.log.origin request.checkpoint))
    {timestamp : UInt64} (timed : timestamp ≠ 0) :
    let witness := { process.witness with logs }
    let outcome := witness.addCheckpoint body (some timestamp) none
    (∀ row, FirstRow witness body row →
      (addCheckpointResponse outcome.1).status = row.status ∧
        (row = .conflict → ∀ request, parseRequest crates body = .ok request →
          (addCheckpointResponse outcome.1).body =
            decimal (latestSize
              (latestCommitted world.history (crates.log.origin request.checkpoint))) ++
              ['\n'])) ∧
    ((addCheckpointResponse outcome.1).status = 200 ↔ ∀ row, ¬ Applies witness body row) ∧
    ((addCheckpointResponse outcome.1).status ≠ 200 → outcome.2 = witness) ∧
    ((∃ cosignatures, outcome.1 = .ok cosignatures) ∨
      ∃ reject, outcome.1 = .error (.rejected reject)) ∧
    ∀ error, TurnedAway world.history error →
      error ≠ .panicked ∧ ∀ reason, error ≠ .internal reason := by
  intro witness outcome
  have sound := sound_of_reachable faithful reachable
  have durable := sound.durable
  rw [up] at durable
  have identified := durable.1
  have stored : ∀ origin, witness.latest origin = latestCommitted world.history origin :=
    sound.latest up
  have sane : ∀ origin, Sane crates origin (witness.latest origin) := by
    intro origin
    rw [stored origin]
    exact sound.explained.sane checkpoints origin
  rw [← identified] at signers
  have rejected := @rejected_of_firstRow crates witness body timestamp verifier checkpoints forks
    sane timed
  have answered : ∀ row, FirstRow witness body row →
      (addCheckpointResponse outcome.1).status = row.status := by
    intro row first
    obtain ⟨reject, refused, status, -⟩ := rejected first
    have same : outcome.1 = .error (.rejected reject) := refused
    rw [same, ← status]
    exact rejectResponse_status reject
  have accepted : (∀ row, ¬ Applies witness body row) →
      ∃ cosignatures, outcome.1 = .ok cosignatures :=
    accepted_of_unviolated faithful verifier checkpoints forks notes signers sane timed
  refine ⟨?_, ?_, ?_, ?_, ?_⟩
  · intro row first
    refine ⟨answered row first, ?_⟩
    intro conflict request parsed
    obtain ⟨reject, refused, -, latest⟩ := rejected first
    have same : outcome.1 = .error (.rejected reject) := refused
    rw [same, latest conflict request parsed, stored]
    rfl
  · constructor
    · intro success row applies
      obtain ⟨first, isFirst⟩ := exists_firstRow applies
      rw [answered first isFirst] at success
      cases first <;> exact absurd success (by decide)
    · intro none
      obtain ⟨cosignatures, same⟩ := accepted none
      rw [same]
      rfl
  · intro failed
    cases result : outcome.1 with
    | ok cosignatures =>
        rw [result] at failed
        exact absurd rfl failed
    | error error => exact addCheckpoint_no_trace faithful result
  · by_cases any : ∃ row, Applies witness body row
    · rcases any with ⟨row, applies⟩
      obtain ⟨first, isFirst⟩ := exists_firstRow applies
      obtain ⟨reject, refused, -⟩ := rejected isFirst
      exact Or.inr ⟨reject, refused⟩
    · exact Or.inl (accepted (not_exists.mp any))
  · intro error turned
    rcases turnedAway_rejected checkpoints notes sound.explained turned with
      rfl | ⟨reject, rfl⟩ | ⟨message, rfl⟩
    · simp
    · simp
    · simp

theorem retry_is_told_the_size : ∃ (world : World Reference.witnessCrates)
    (process : Process Reference.witnessCrates),
    Reachable Reference.identity world ∧ world.machine = .up process ∧
      (addCheckpointResponse
        (process.witness.addCheckpoint (Reference.body 0 1) (some 200) none).1).status = 409 ∧
      (addCheckpointResponse
        (process.witness.addCheckpoint (Reference.body 0 1) (some 200) none).1).body =
          ['1', '\n'] := by
  obtain ⟨witness, commit, idle, extended, latest⟩ := Reference.one_record
  have verifier := Reference.verifyLaws Reference.entries
  have size : commit.state.size = 1 := congrArg Head.size extended.head
  have fits : (treeProof Reference.storeCrates Reference.entries 0 1).length ≤ maxProofLines :=
    treeProof_fits _ _ _ (by decide)
  have parsed := Reference.parse_body idle.held (UInt64.zero_le) fits
  let vetted := Reference.extension idle.held (UInt64.zero_le) fits
  have applied : ∀ row, Applies witness (Reference.body 0 1) row =
      Violates vetted.snapshot (witness.latest Reference.origin) vetted.request row := by
    intro row
    simp only [Applies, parsed]
    rfl
  have first : FirstRow witness (Reference.body 0 1) .conflict := by
    constructor
    · rw [applied, latest]
      change 0 ≠ commit.state.size
      rw [size]
      decide
    · intro earlier before
      rw [applied]
      exact unviolated_of_vetted verifier vetted _ before
  have timed : (200 : UInt64) ≠ 0 := by decide
  have signers : ∀ request,
      parseRequest Reference.witnessCrates (Reference.body 0 1) = .ok request →
      Reference.witnessCrates.log.SignersSucceed Reference.identity.name
        Reference.identity.ed25519.seed Reference.identity.mldsa44.seed
        (Reference.witnessCrates.log.origin request.checkpoint) :=
    fun _ _ => Reference.signersSucceed Reference.entries (by decide) _ _
  obtain ⟨answers, _⟩ := status_taxonomy Reference.storeCrates_faithful verifier
    (Reference.checkpointLaws Reference.entries) (Reference.rejectsFork Reference.entries)
    (Reference.newNoteAccepts Reference.entries) idle.reachable rfl witness.logs
    (Reference.body 0 1) signers timed
  have status := (answers .conflict first).1
  have told := (answers .conflict first).2
  refine ⟨_, ⟨witness, [], []⟩, idle.reachable, rfl, status, ?_⟩
  have sound := sound_of_reachable Reference.storeCrates_faithful idle.reachable
  have committed : latestCommitted (Reference.exchange commit) Reference.origin =
      some commit.state := (sound.stored_commit rfl latest).1
  refine (told rfl _ parsed).trans ?_
  change decimal (latestSize (latestCommitted (Reference.exchange commit) Reference.origin)) ++
    _ = _
  rw [committed, latestSize, size]
  decide

end MosskeysWitness
