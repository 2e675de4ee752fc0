import MosskeysWitness.Honest
import MosskeysWitness.Reference.Fork
import MosskeysWitness.Taxonomy

/-! The line on stderr about a log that seems to misbehave: what it is worth as evidence against
the log, and which requests leave one. -/

namespace MosskeysWitness

open MetamorphicLog (Head)

/-- What stands in the line. -/
structure Evidence where
  origin : Text
  message : String
  oldSize : UInt64
  newSize : UInt64
  deriving DecidableEq

/-- The rejections that `add_checkpoint` reports. -/
def Reject.isSuspicious : Reject → Bool
  | .emptySizeNonEmptyRoot | .proofWithZeroOldSize | .consistencyProofFailed
  | .sameSizeRootMismatch => true
  | _ => false

variable {crates : WitnessCrates}

/-- The line for a request that the closure has turned away. -/
def evidence (vetted : Vetted crates) : WitnessError → Option Evidence
  | .rejected reject =>
      if reject.isSuspicious then
        some ⟨vetted.origin, reject.message, vetted.oldSize, vetted.newSize⟩
      else none
  | _ => none

/-- A mismatch of the roots of heads of one size is reported only where the roots differ. -/
def MetamorphicLog.MismatchTells (log : MetamorphicLog) : Prop :=
  ∀ old new proof, log.verifyConsistency old new proof = .error .rootMismatch →
    log.size old = log.size new → log.rootHash old ≠ log.rootHash new

/-- A key of `trusted` has signed the note of the checkpoint. -/
structure Attests (crates : WitnessCrates) (trusted : List crates.log.VerifierKey)
    (note : crates.log.SignedNote) (checkpoint : crates.log.Checkpoint) : Prop where
  read : crates.log.parseCheckpoint (crates.log.text note) = .ok checkpoint
  signed : ∃ signature ∈ crates.log.signatures note, ∃ key ∈ trusted,
    crates.log.names key signature = true ∧
      crates.log.verifies key (crates.log.text note) signature = true

/-- The note stored for a commit and the note of a request, on checkpoints of one origin and size
and of different roots, each signed by a key that was trusted for the origin at its time. With at
most `limit` signatures the stored one reads back. -/
structure Convicts (limit : Nat) (commit : Commit crates) (vetted : Vetted crates) : Prop where
  origin : commit.state.origin = vetted.origin
  size : commit.state.size = vetted.newSize
  root : commit.state.root ≠ vetted.newRoot
  stored : ∃ note checkpoint, commit.state.note = crates.log.marshal note ∧
    ((crates.log.signatures note).length ≤ limit →
      crates.log.parseNote commit.state.note = .ok note) ∧
    Attests crates commit.vetted.trusted note checkpoint ∧
    crates.log.head checkpoint = commit.state.head
  shown : Attests crates vetted.trusted vetted.request.note vetted.request.checkpoint

/-- What is wrong with a request at the latest size that is turned away for `reject`. -/
inductive Suspects (vetted : Vetted crates) (current : Option LogState) : Reject → Prop
  | emptySize : vetted.newSize = 0 → vetted.newRoot ≠ crates.log.emptyRoot →
      Suspects vetted current .emptySizeNonEmptyRoot
  | zeroOld : vetted.oldSize = 0 → vetted.proof ≠ [] →
      Suspects vetted current .proofWithZeroOldSize
  | mismatch {state old} : current = some state →
      crates.log.newCheckpoint vetted.origin state.size state.root = .ok old →
      crates.log.verifyConsistency old vetted.request.checkpoint vetted.proof =
        .error .rootMismatch →
      vetted.oldSize = vetted.newSize → Suspects vetted current .sameSizeRootMismatch
  | unproved {state old error} : current = some state →
      crates.log.newCheckpoint vetted.origin state.size state.root = .ok old →
      crates.log.verifyConsistency old vetted.request.checkpoint vetted.proof = .error error →
      Suspects vetted current .consistencyProofFailed

section Decision

variable {identity : Identity} {vetted : Vetted crates} {current : Option LogState}
  {timestamp : UInt64} {reject : Reject}

theorem evidence_some {error : WitnessError} {line : Evidence}
    (printed : evidence vetted error = some line) :
    ∃ reject, error = .rejected reject ∧ reject.isSuspicious = true ∧
      line = ⟨vetted.origin, reject.message, vetted.oldSize, vetted.newSize⟩ := by
  cases error with
  | rejected reject =>
      rw [evidence] at printed
      split_ifs at printed with suspicious
      exact ⟨reject, rfl, suspicious, (Option.some.inj printed).symm⟩
  | clock | sign | store | internal | panicked => cases printed

theorem message_injective {reject reject' : Reject} (suspicious : reject.isSuspicious = true)
    (suspicious' : reject'.isSuspicious = true) (same : reject.message = reject'.message) :
    reject = reject' := by
  cases reject <;> cases suspicious <;> cases reject' <;> cases suspicious' <;>
    first | rfl | exact absurd same (by decide)

theorem checkConsistency_suspects
    (failed : checkConsistency vetted current = .error (.rejected reject)) :
    Suspects vetted current reject := by
  unfold checkConsistency at failed
  split_ifs at failed
  split at failed
  · cases failed
  · split at failed
    · cases failed
    · rename_i old built
      split at failed
      · cases failed
      · rename_i error refused
        split_ifs at failed with same
        · cases failed
          rw [same.1] at refused
          exact .mismatch rfl built refused same.2
        · cases failed
          exact .unproved rfl built refused

theorem checkConsistency_mismatch {state : LogState} {old : crates.log.Checkpoint}
    (later : 0 < vetted.oldSize) (same : vetted.oldSize = vetted.newSize)
    (built : crates.log.newCheckpoint vetted.origin state.size state.root = .ok old)
    (refused : crates.log.verifyConsistency old vetted.request.checkpoint vetted.proof =
      .error .rootMismatch) :
    checkConsistency vetted (some state) = .error (.rejected .sameSizeRootMismatch) := by
  simp only [checkConsistency, if_pos later, built, refused]
  exact if_pos ⟨trivial, same⟩

theorem cosign_unrejected : cosign identity vetted timestamp ≠ .error (.rejected reject) := by
  intro failed
  rw [cosign] at failed
  split at failed
  · cases failed
  · split at failed
    · cases failed
    · split at failed <;> cases failed

theorem settle_suspects
    (failed : settle identity vetted timestamp current = .error (.rejected reject))
    (suspicious : reject.isSuspicious = true) :
    vetted.oldSize = latestSize current ∧ Suspects vetted current reject := by
  rw [settle] at failed
  split_ifs at failed with other hollow unproved
  · cases failed
    cases suspicious
  · cases failed
    exact ⟨not_not.mp other, .emptySize hollow.1 hollow.2⟩
  · cases failed
    exact ⟨not_not.mp other, .zeroOld unproved.1 unproved.2⟩
  · refine ⟨not_not.mp other, ?_⟩
    split at failed
    · rename_i error inconsistent
      cases failed
      exact checkConsistency_suspects inconsistent
    · exact absurd failed cosign_unrejected

theorem Vetted.attests (verifier : crates.log.VerifyLaws) (vetted : Vetted crates) :
    Attests crates vetted.trusted vetted.request.note vetted.request.checkpoint := by
  rcases verifier.of_verified vetted.checked with ⟨signed, genuine⟩
  rcases List.exists_mem_of_ne_nil _ signed with ⟨signature, member⟩
  rcases genuine signature member with ⟨inside, key, trusted, named, verifies⟩
  exact ⟨vetted.request.read, signature, inside, key, trusted, named, verifies⟩

theorem Story.attests {limit : Nat} {commit : Commit crates} {note : crates.log.SignedNote}
    {checkpoint : crates.log.Checkpoint} {logs : List crates.log.Signature}
    {edSig mlSig : crates.log.Signature}
    (story : Story identity limit commit note checkpoint logs edSig mlSig) :
    Attests crates commit.vetted.trusted note checkpoint := by
  rcases List.exists_mem_of_ne_nil _ story.signed with ⟨signature, member⟩
  rcases story.trusted signature member with ⟨key, trusted, named, verifies⟩
  have inside : signature ∈ crates.log.signatures note := by
    rw [story.signatures]
    exact List.mem_append_left _ member
  exact ⟨story.read, signature, inside, key, trusted, named, verifies⟩

end Decision

section Runs

variable {identity : Identity} {world : World crates} {later earlier : History crates} {id : Nat}
  {vetted : Vetted crates} {error : WitnessError} {line : Evidence} {limit : Nat}

/-- A reported mismatch of roots convicts the log: what is stored and what it shows now are both
signed. -/
theorem convicts_of_mismatch (checkpoints : crates.log.CheckpointLaws)
    (notes : crates.log.NoteLaws) (trips : crates.log.RoundTrips limit)
    (verifier : crates.log.VerifyLaws) (tells : crates.log.MismatchTells)
    (explained : Explained identity earlier)
    (latest : vetted.oldSize = latestSize (latestCommitted earlier vetted.origin))
    (suspects : Suspects vetted (latestCommitted earlier vetted.origin) .sameSizeRootMismatch) :
    ∃ commit ∈ commitsOf earlier vetted.origin, Convicts limit commit vetted := by
  cases suspects with
  | @mismatch state old found built refused grown =>
      rcases mem_journal.mp (LastWins.mem_of_lookup found) with ⟨commit, member, rfl⟩
      have named := latestCommitted_origin found
      have committed := mem_commits.mp member
      rcases explained.of_mem committed with ⟨_, _, -, explains, before⟩
      obtain ⟨note, checkpoint, logs, edSig, mlSig, story⟩ :=
        tellsStory notes trips verifier ⟨explains, before⟩
      have size : commit.state.size = vetted.newSize := by
        calc
          commit.state.size = latestSize (latestCommitted earlier vetted.origin) := by
            rw [found, latestSize]
          _ = vetted.oldSize := latest.symm
          _ = vetted.newSize := grown
      have head := (checkpoints.new_parts _ _ _ _ built).2
      have root : commit.state.root ≠ vetted.newRoot := by
        have same : crates.log.size old = crates.log.size vetted.request.checkpoint :=
          (congrArg Head.size head).trans size
        have roots := tells _ _ _ refused same
        rwa [show crates.log.rootHash old = commit.state.root from congrArg Head.root head] at roots
      exact ⟨commit, mem_commitsOf.mpr ⟨committed, named⟩,
        { origin := named
          size := size
          root := root
          stored := ⟨note, checkpoint, story.rendered, story.reads, story.attests,
            Head.ext story.size story.root⟩
          shown := vetted.attests verifier }⟩

theorem SignsOnly.commit {history : History crates} {origin : Text} {entries : Nat → List UInt8}
    (honest : SignsOnly history origin entries) (explained : Explained identity history)
    {commit : Commit crates} (member : commit ∈ commitsOf history origin) :
    commit.state.head = treeHead crates.toStoreCrates entries commit.state.size := by
  rcases mem_commitsOf.mp member with ⟨committed, named⟩
  rcases explained.of_mem committed with ⟨later, earlier, rfl, explains, -⟩
  have cosigned := (commit_settled explains).cosigned
  have accepted : Event.vetted commit.id commit.vetted ∈ later ++ .committed commit :: earlier :=
    List.mem_append_right _ (List.mem_cons_of_mem _ explains.1)
  have head := honest commit.id commit.vetted accepted (cosigned.origin.symm.trans named)
  rwa [cosigned.head, ← cosigned.size] at head

/-- What the line says is so. -/
structure Holds (crates : WitnessCrates) (limit : Nat) (earlier : History crates)
    (vetted : Vetted crates) (line : Evidence) : Prop where
  origin : line.origin = vetted.origin
  oldSize : line.oldSize = latestSize (latestCommitted earlier vetted.origin)
  newSize : line.newSize = vetted.newSize
  shown : Attests crates vetted.trusted vetted.request.note vetted.request.checkpoint
  fork : line.message = Reject.message .sameSizeRootMismatch →
    ∃ commit ∈ commitsOf earlier vetted.origin, Convicts limit commit vetted
  hollow : line.message = Reject.message .emptySizeNonEmptyRoot →
    vetted.newSize = 0 ∧ vetted.newRoot ≠ crates.log.emptyRoot

theorem holds_of_suspects (checkpoints : crates.log.CheckpointLaws)
    (notes : crates.log.NoteLaws) (trips : crates.log.RoundTrips limit)
    (verifier : crates.log.VerifyLaws) (tells : crates.log.MismatchTells)
    (explained : Explained identity earlier) {reject : Reject}
    (suspicious : reject.isSuspicious = true)
    (latest : vetted.oldSize = latestSize (latestCommitted earlier vetted.origin))
    (suspects : Suspects vetted (latestCommitted earlier vetted.origin) reject) :
    Holds crates limit earlier vetted
      ⟨vetted.origin, reject.message, vetted.oldSize, vetted.newSize⟩ where
  origin := rfl
  oldSize := latest
  newSize := rfl
  shown := vetted.attests verifier
  fork := by
    intro same
    cases message_injective suspicious rfl same
    exact convicts_of_mismatch checkpoints notes trips verifier tells explained latest suspects
  hollow := by
    intro same
    cases message_injective suspicious rfl same
    cases suspects with
    | emptySize zero root => exact ⟨zero, root⟩

/-- Every line is true of the log or of whoever sent the request: the checkpoint was signed for the
log, the line about a fork comes with two signed checkpoints that contradict each other, and a log
whose keys sign one tree only never draws that line or the one about an empty tree. -/
theorem evidence_holds (faithful : crates.toStoreCrates.Faithful)
    (checkpoints : crates.log.CheckpointLaws) (notes : crates.log.NoteLaws)
    (trips : crates.log.RoundTrips limit) (verifier : crates.log.VerifyLaws)
    (tells : crates.log.MismatchTells) (reachable : Reachable identity world)
    (turned : world.history = later ++ .rejected id vetted error :: earlier)
    (printed : evidence vetted error = some line) :
    Holds crates limit earlier vetted line ∧
      ∀ entries, crates.log.emptyRoot = crates.sha256 [] →
        SignsOnly world.history vetted.origin entries →
        line.message ≠ Reject.message .sameSizeRootMismatch ∧
          line.message ≠ Reject.message .emptySizeNonEmptyRoot := by
  have explained := (sound_of_reachable faithful reachable).explained
  rw [turned] at explained
  rcases explained.at with ⟨⟨accepted, cause⟩, before⟩
  rcases evidence_some printed with ⟨reject, rfl, suspicious, rfl⟩
  have failed : ∃ timestamp, settle identity vetted timestamp
      (latestCommitted earlier vetted.origin) = .error (.rejected reject) := by
    rcases cause with early | ⟨timestamp, -, failed⟩
    · cases early
    · exact ⟨timestamp, failed⟩
  rcases failed with ⟨timestamp, failed⟩
  rcases settle_suspects failed suspicious with ⟨latest, suspects⟩
  have holds := holds_of_suspects checkpoints notes trips verifier tells before suspicious latest
    suspects
  refine ⟨holds, ?_⟩
  intro entries emptyTree honest
  have head : crates.log.head vetted.request.checkpoint =
      treeHead crates.toStoreCrates entries vetted.newSize := by
    apply honest id vetted _ rfl
    rw [turned]
    exact List.mem_append_right _ (List.mem_cons_of_mem _ accepted)
  have root : vetted.newRoot = (treeHead crates.toStoreCrates entries vetted.newSize).root :=
    congrArg Head.root head
  constructor
  · intro same
    rcases holds.fork same with ⟨commit, member, convicts⟩
    have inside : commit ∈ commitsOf world.history vetted.origin := by
      rw [mem_commitsOf] at member ⊢
      rw [turned]
      exact ⟨List.mem_append_right _ (List.mem_cons_of_mem _ member.1), member.2⟩
    have tree := honest.commit (turned ▸ explained) inside
    rw [convicts.size] at tree
    exact convicts.root ((congrArg Head.root tree).trans root.symm)
  · intro same
    rcases holds.hollow same with ⟨zero, other⟩
    rw [zero, treeHead_zero] at root
    exact other (root.trans emptyTree.symm)

end Runs

section Forks

variable {identity : Identity} {witness : Witness crates} {front back : List (Pending crates)}
  {replies : List (Commit crates)} {nextId id : Nat} {vetted : Vetted crates}
  {timestamp : {timestamp : UInt64 // timestamp ≠ 0}} {history : History crates}

theorem suspicious_of_status {reject : Reject} (status : reject.status = 422) :
    reject.isSuspicious = true := by
  cases reject with
  | emptySizeNonEmptyRoot | proofWithZeroOldSize | consistencyProofFailed
  | sameSizeRootMismatch => rfl
  | malformed | unknownOrigin | noTrustedSignature | invalidTrustedSignature
  | oldSizeExceedsCheckpoint | sizeConflict => cases status

theorem suspicious_of_settle {current : Option LogState} {timestamp : UInt64}
    (accepts : crates.log.NewNoteAccepts)
    (signers : crates.log.SignersSucceed identity.name identity.ed25519.seed
      identity.mldsa44.seed vetted.origin)
    (sane : Sane crates vetted.origin current) (latest : vetted.oldSize = latestSize current)
    (timed : timestamp ≠ 0) {error : WitnessError}
    (failed : settle identity vetted timestamp current = .error error) :
    ∃ reject, error = .rejected reject ∧ reject.isSuspicious = true := by
  rw [settle, if_neg (not_not.mpr latest)] at failed
  split_ifs at failed
  · cases failed
    exact ⟨_, rfl, rfl⟩
  · cases failed
    exact ⟨_, rfl, rfl⟩
  · rcases checkConsistency_rejects sane latest with passed | ⟨reject, refused, status⟩
    · rcases cosign_succeeds signers accepts timed with ⟨state, body, signed⟩
      rw [passed, signed] at failed
      cases failed
    · rw [refused] at failed
      cases failed
      exact ⟨reject, rfl, suspicious_of_status status⟩

theorem root_of_approved (checkpoints : crates.log.CheckpointLaws)
    (forks : crates.log.RejectsFork) {current : Option LogState} {timestamp : UInt64}
    (sane : Sane crates vetted.origin current) {state state' : LogState} {body : Text}
    (approved : settle identity vetted timestamp current = .ok (state', body))
    (found : current = some state) (size : state.size = vetted.newSize) :
    state.root = vetted.newRoot := by
  have settled := settle_ok approved
  have clean := (checkConsistency_ok_iff checkpoints forks sane settled.latest
    settled.emptyRoot).mp settled.consistent
  by_contra other
  exact clean ⟨state, found, Or.inl ⟨size, other⟩⟩

/-- A request at the size of the stored head is committed, or leaves a line and nothing else; and
one that contradicts the head is never committed. -/
theorem forks_leave_evidence (faithful : crates.toStoreCrates.Faithful)
    (checkpoints : crates.log.CheckpointLaws) (forks : crates.log.RejectsFork)
    (accepts : crates.log.NewNoteAccepts)
    (signers : crates.log.SignersSucceed identity.name identity.ed25519.seed
      identity.mldsa44.seed vetted.origin)
    (reachable : Reachable identity
      ⟨.up ⟨witness, front ++ ⟨id, vetted, some timestamp⟩ :: back, replies⟩, nextId, history⟩)
    (latest : vetted.oldSize = latestSize (witness.latest vetted.origin)) :
    (∃ error line, witness.submit vetted timestamp.val none = (.error error, witness) ∧
      evidence vetted error = some line) ∨
    (∃ body next, witness.submit vetted timestamp.val none = (.ok body, next)) ∧
      ∀ state, witness.latest vetted.origin = some state → state.size = vetted.newSize →
        state.root = vetted.newRoot := by
  have sound := sound_of_reachable faithful reachable
  have turn := sound.turn
  have sane : Sane crates vetted.origin (witness.latest vetted.origin) := by
    rw [turn.2.1]
    exact sound.explained.sane checkpoints vetted.origin
  rw [← turn.1] at signers
  cases decided : settle witness.toIdentity vetted timestamp.val
      (witness.latest vetted.origin) with
  | ok approved =>
      rcases approved with ⟨state, body⟩
      exact Or.inr ⟨⟨body, _, submit_ok faithful decided⟩,
        fun _ => root_of_approved checkpoints forks sane decided⟩
  | error error =>
      rcases suspicious_of_settle accepts signers sane latest timestamp.property decided with
        ⟨reject, rfl, suspicious⟩
      exact Or.inl ⟨_, _, submit_error none decided, if_pos suspicious⟩

end Forks

section Fork

open Reference

theorem mismatchTells : witnessCrates.log.MismatchTells := by
  intro old new proof refused same roots
  have compared : verifyConsistency entries old new proof = .error .rootMismatch := refused
  rw [verifyConsistency, if_pos same] at compared
  split_ifs at compared
  · cases compared
  · contradiction

variable {logs : Allowlist witnessCrates} (held : logs.vkeys.lookup origin = some [logKey])

abbrev fork (size : UInt64) : Vetted witnessCrates := stray held (UInt64.le_refl size)

variable {state : LogState} {size : UInt64}

theorem fork_inconsistent (head : state.head = treeHead storeCrates entries size)
    (positive : 0 < size) :
    checkConsistency (fork held size) (some state) = .error (.rejected .sameSizeRootMismatch) := by
  have rooted : state.root = (treeHead storeCrates entries size).root := congrArg Head.root head
  let stored : Checkpoint := ⟨origin, state.size, state.root, isOrigin_origin⟩
  have sized : stored.size = (strayCheckpoint size).size := congrArg Head.size head
  have apart : stored.root ≠ (strayCheckpoint size).root := by
    change state.root ≠ strayRoot _
    rw [rooted]
    exact (strayRoot_ne _).symm
  have built : witnessCrates.log.newCheckpoint (fork held size).origin state.size state.root =
      .ok stored := Checkpoint.new_parts stored
  have refused : verifyConsistency entries stored (strayCheckpoint size) [] =
      .error .rootMismatch := by
    rw [verifyConsistency, if_pos sized, if_neg (not_not.mpr rfl), if_pos apart]
  exact checkConsistency_mismatch positive rfl built refused

theorem fork_refused (head : state.head = treeHead storeCrates entries size)
    (positive : 0 < size) (identity : Identity) (timestamp : UInt64) :
    settle identity (fork held size) timestamp (some state) =
      .error (.rejected .sameSizeRootMismatch) := by
  have sized : state.size = size := congrArg Head.size head
  have solid : size ≠ 0 := by
    rintro rfl
    exact absurd positive (by decide)
  have latest : ¬ (fork held size).oldSize ≠ latestSize (some state) :=
    not_not.mpr sized.symm
  have hollow : ¬ ((fork held size).newSize = 0 ∧
      (fork held size).newRoot ≠ witnessCrates.log.emptyRoot) := fun hollow => solid hollow.1
  have unproved : ¬ ((fork held size).oldSize = 0 ∧ (fork held size).proof ≠ []) :=
    fun unproved => solid unproved.1
  rw [settle, if_neg latest, if_neg hollow, if_neg unproved,
    fork_inconsistent held head positive]

theorem meets_fork {witness : Witness witnessCrates} {nextId : Nat}
    {history : History witnessCrates} (idle : Idle witness nextId history) {timestamp : UInt64}
    (timed : timestamp ≠ 0) :
    Reachable identity
      ⟨.up ⟨witness, [] ++ ⟨nextId, fork idle.held size, some ⟨timestamp, timed⟩⟩ :: [], []⟩,
        nextId + 1, .clockRead nextId timestamp :: .vetted nextId (fork idle.held size) ::
          history⟩ := by
  have accept : Step identity ⟨.up ⟨witness, [], []⟩, nextId, history⟩
      ⟨.up ⟨witness, [] ++ ⟨nextId, fork idle.held size, none⟩ :: [], []⟩, nextId + 1,
        .vetted nextId (fork idle.held size) :: history⟩ :=
    .accept (vet_stray idle.held (UInt64.le_refl size))
  exact (idle.reachable.tail accept).tail (.readClock (stamp_nonzero timed))

theorem turns_fork {witness : Witness witnessCrates} {nextId : Nat}
    {history : History witnessCrates} (idle : Idle witness nextId history)
    (found : witness.latest origin = some state)
    (head : state.head = treeHead storeCrates entries size) (positive : 0 < size)
    {timestamp : UInt64} (timed : timestamp ≠ 0) :
    ∃ world, Reachable identity world ∧
      world.history = .rejected nextId (fork idle.held size) (.rejected .sameSizeRootMismatch) ::
        .clockRead nextId timestamp :: .vetted nextId (fork idle.held size) :: history := by
  have refused : settle witness.toIdentity (fork idle.held size) timestamp
      (witness.latest origin) = .error (.rejected .sameSizeRootMismatch) := by
    rw [found]
    exact fork_refused idle.held head positive witness.toIdentity timestamp
  have turned : witness.submit (fork idle.held size) timestamp none =
      (.error (.rejected .sameSizeRootMismatch), witness) := submit_error none refused
  exact ⟨_, (meets_fork idle timed).tail (.reject turned), rfl⟩

/-- A log that shows a stray checkpoint beside the cosigned one is convicted. -/
theorem shown_fork_convicts : ∃ (world : World witnessCrates) (commit : Commit witnessCrates)
    (vetted : Vetted witnessCrates), Reachable identity world ∧
      commit ∈ commitsOf world.history vetted.origin ∧ Convicts 100 commit vetted := by
  rcases one_record with ⟨witness, first, idle, extended, latest⟩
  rcases turns_fork idle latest extended.head (by decide) (by decide : (100 : UInt64) ≠ 0) with
    ⟨world, reachable, turned⟩
  have holds := evidence_holds witnessCrates_faithful (checkpointLaws entries) (noteLaws entries)
    (roundTrips entries 100) (verifyLaws entries) mismatchTells reachable
    (turned.trans (List.nil_append _).symm) rfl
  rcases holds.1.fork rfl with ⟨commit, member, convicts⟩
  refine ⟨world, commit, fork idle.held 1, reachable, ?_, convicts⟩
  rw [mem_commitsOf] at member ⊢
  rw [turned]
  exact ⟨List.mem_cons_of_mem _ member.1, member.2⟩

/-- The stray checkpoint leaves a line. -/
theorem shown_fork_leaves_evidence : ∃ (witness : Witness witnessCrates)
    (vetted : Vetted witnessCrates) (error : WitnessError) (line : Evidence),
    witness.submit vetted 100 none = (.error error, witness) ∧
      evidence vetted error = some line := by
  rcases one_record with ⟨witness, first, idle, extended, latest⟩
  have rooted : first.state.root = (treeHead storeCrates entries 1).root :=
    congrArg Head.root extended.head
  have sized : first.state.size = 1 := congrArg Head.size extended.head
  have signers : witnessCrates.log.SignersSucceed identity.name identity.ed25519.seed
      identity.mldsa44.seed (fork idle.held 1).origin := signersSucceed entries (by decide) _ _
  have known : (fork idle.held 1).oldSize = latestSize (witness.latest origin) := by
    rw [latest]
    exact sized.symm
  have decided := forks_leave_evidence witnessCrates_faithful (checkpointLaws entries)
    (rejectsFork entries) (newNoteAccepts entries) signers
    (@meets_fork 1 _ _ _ idle 100 (by decide)) known
  rcases decided with ⟨error, line, refused, printed⟩ | ⟨-, agrees⟩
  · exact ⟨witness, fork idle.held 1, error, line, refused, printed⟩
  · have same := agrees first.state latest sized
    exact absurd (same.symm.trans rooted) (strayRoot_ne _)

end Fork

end MosskeysWitness
