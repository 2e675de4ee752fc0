import MosskeysWitness.Reference.Run

/-! The committed records of one origin form a chain: each was decided on the one before it. -/

namespace MosskeysWitness

variable {crates : WitnessCrates} {identity : Identity}

def commitsOf (history : History crates) (origin : Text) : List (Commit crates) :=
  (commits history).filter fun commit => commit.state.origin = origin

theorem latestCommitted_eq_head (history : History crates) (origin : Text) :
    latestCommitted history origin = (commitsOf history origin).head?.map (·.state) := by
  rw [latestCommitted, latestStates, LastWins.lookup_fold, journal, ← List.map_reverse,
    List.reverse_reverse, List.find?_map, commitsOf, List.head?_filter]
  rfl

theorem mem_commitsOf {history : History crates} {origin : Text} {commit : Commit crates} :
    commit ∈ commitsOf history origin ↔
      Event.committed commit ∈ history ∧ commit.state.origin = origin := by
  simp [commitsOf, mem_commits]

theorem commit_settled {earlier : History crates} {commit : Commit crates}
    (explains : Explains identity earlier (.committed commit)) :
    Settled identity commit.vetted commit.timestamp
      (latestCommitted earlier commit.state.origin) commit.state commit.body := by
  rcases explains with ⟨-, -, approved⟩
  have settled := settle_ok approved
  rw [settled.cosigned.origin]
  exact settled

/-- Every property of explained commits is proved by going through the history once: an event
that is no commit leaves the commits of an origin alone, a commit is put in front. -/
theorem commitsOf_induction {origin : Text} {motive : List (Commit crates) → Prop}
    (none : motive [])
    (commit : ∀ (earlier : History crates) (commit : Commit crates),
      Explained identity earlier → commit.state.origin = origin →
      Settled identity commit.vetted commit.timestamp (latestCommitted earlier origin)
        commit.state commit.body →
      motive (commitsOf earlier origin) → motive (commit :: commitsOf earlier origin))
    {history : History crates} (explained : Explained identity history) :
    motive (commitsOf history origin) := by
  induction history with
  | nil => exact none
  | cons event earlier ih =>
      have rest := ih explained.2
      cases event with
      | committed made =>
          by_cases same : made.state.origin = origin
          · have settled := commit_settled explained.1
            rw [same] at settled
            have front : commitsOf (.committed made :: earlier) origin =
                made :: commitsOf earlier origin := by
              simp [commitsOf, commits, same]
            rw [front]
            exact commit earlier made explained.2 same settled rest
          · have kept : commitsOf (.committed made :: earlier) origin =
                commitsOf earlier origin := by
              simp [commitsOf, commits, same]
            rw [kept]
            exact rest
      | vetted | refused | clockRead | rejected | responded | served => exact rest

section Stored

theorem Sound.latest {world : World crates} (sound : Sound identity world)
    {process : Process crates} (up : world.machine = .up process) (origin : Text) :
    process.witness.latest origin = latestCommitted world.history origin := by
  have durable := sound.durable
  rw [up] at durable
  rw [Witness.latest, Store.latest, latestCommitted, durable.2]

theorem Sound.stored_commit {world : World crates} (sound : Sound identity world)
    {process : Process crates} (up : world.machine = .up process) {origin : Text}
    {state : LogState} (found : process.witness.latest origin = some state) :
    latestCommitted world.history origin = some state ∧
      ∃ commit earlier, Event.committed commit ∈ world.history ∧ commit.state = state ∧
        Explains identity earlier (.committed commit) ∧
        Event.vetted commit.id commit.vetted ∈ world.history := by
  have latest : latestCommitted world.history origin = some state :=
    (sound.latest up origin).symm.trans found
  obtain ⟨commit, member, same⟩ := mem_journal.mp (LastWins.mem_of_lookup latest)
  have committed := mem_commits.mp member
  obtain ⟨later, earlier, whole, explains, -⟩ := sound.explained.of_mem committed
  refine ⟨latest, commit, earlier, committed, same, explains, ?_⟩
  rw [whole]
  exact List.mem_append_right _ (List.mem_cons_of_mem _ explains.1)

theorem Cosigned.checkpoint_builds (checkpoints : crates.log.CheckpointLaws)
    {vetted : Vetted crates} {timestamp : UInt64} {state : LogState} {body : Text}
    (cosigned : Cosigned identity vetted timestamp state body) :
    ∃ checkpoint, crates.log.newCheckpoint state.origin state.size state.root =
      .ok checkpoint := by
  rw [cosigned.origin, cosigned.size, cosigned.root]
  exact checkpoints.new_parsed _ _ vetted.request.read

end Stored

section Chained

def sizeBefore (earlier : List (Commit crates)) : UInt64 :=
  latestSize (earlier.head?.map (·.state))

/-- Newest first: the old size of each commit is the size of the one before it, 0 for the first,
and its own size is no smaller. -/
def Chained : List (Commit crates) → Prop
  | [] => True
  | commit :: earlier =>
      commit.vetted.oldSize = sizeBefore earlier ∧ sizeBefore earlier ≤ commit.state.size ∧
        Chained earlier

theorem chained_commitsOf {history : History crates} (explained : Explained identity history)
    (origin : Text) : Chained (commitsOf history origin) := by
  refine commitsOf_induction trivial ?_ explained
  intro earlier commit _ _ settled chained
  have old : commit.vetted.oldSize = sizeBefore (commitsOf earlier origin) := by
    rw [settled.latest, latestCommitted_eq_head]
    rfl
  refine ⟨old, ?_, chained⟩
  rw [← old, settled.cosigned.size]
  exact commit.vetted.ordered

theorem Chained.size_le {newest : Commit crates} {earlier : List (Commit crates)}
    (chained : Chained (newest :: earlier)) :
    ∀ commit ∈ earlier, commit.state.size ≤ newest.vetted.oldSize := by
  induction earlier generalizing newest with
  | nil => simp
  | cons next earlier ih =>
      rcases chained with ⟨old, -, rest⟩
      intro commit member
      have step : next.state.size = newest.vetted.oldSize := old.symm
      rcases List.mem_cons.mp member with rfl | inside
      · exact UInt64.le_of_eq step
      · calc
          commit.state.size ≤ next.vetted.oldSize := ih rest commit inside
          _ = sizeBefore earlier := rest.1
          _ ≤ next.state.size := rest.2.1
          _ = newest.vetted.oldSize := step

theorem Chained.tail {newest : Commit crates} {earlier : List (Commit crates)}
    (chained : Chained (newest :: earlier)) : Chained earlier := chained.2.2

/-- Two commits that both advance do not start from one size. -/
theorem Chained.advance_once {chain : List (Commit crates)} (chained : Chained chain)
    (size : UInt64) :
    (chain.filter fun commit =>
      commit.vetted.oldSize = size ∧ size < commit.state.size).length ≤ 1 := by
  induction chain with
  | nil => simp
  | cons newest earlier ih =>
      by_cases advancing : newest.vetted.oldSize = size ∧ size < newest.state.size
      · have none : earlier.filter (fun commit =>
            commit.vetted.oldSize = size ∧ size < commit.state.size) = [] := by
          rw [List.filter_eq_nil_iff]
          intro commit member both
          have before := chained.size_le commit member
          rw [advancing.1] at before
          have after : size < commit.state.size := (of_decide_eq_true both).2
          exact absurd after (UInt64.not_lt.mpr before)
        rw [List.filter_cons_of_pos (by simpa using advancing), none]
        rfl
      · rw [List.filter_cons_of_neg (by simpa using advancing)]
        exact ih chained.tail

end Chained

section Latest

theorem latestCommitted_committed (commit : Commit crates) (earlier : History crates)
    (origin : Text) :
    latestCommitted (.committed commit :: earlier) origin =
      if commit.state.origin = origin then some commit.state
      else latestCommitted earlier origin := by
  rw [latestCommitted, journal_committed, latestStates, LastWins.lookup_fold_concat]
  rfl

theorem latestSize_mono {later earlier : History crates}
    (explained : Explained identity (later ++ earlier)) (origin : Text) :
    latestSize (latestCommitted earlier origin) ≤
      latestSize (latestCommitted (later ++ earlier) origin) := by
  induction later with
  | nil => exact UInt64.le_refl _
  | cons event later ih =>
      have before := ih explained.2
      cases event with
      | committed commit =>
          rw [List.cons_append, latestCommitted_committed]
          by_cases same : commit.state.origin = origin
          · have settled := commit_settled explained.1
            rw [same] at settled
            rw [if_pos same]
            calc
              latestSize (latestCommitted earlier origin)
                  ≤ latestSize (latestCommitted (later ++ earlier) origin) := before
              _ = commit.vetted.oldSize := settled.latest.symm
              _ ≤ commit.vetted.newSize := commit.vetted.ordered
              _ = commit.state.size := settled.cosigned.size.symm
          · rw [if_neg same]
            exact before
      | vetted | refused | clockRead | rejected | responded | served => exact before

end Latest

/-- A 409 carries the size of the last record committed before it, 0 if there is none. -/
def ConflictsTellLatest (history : History crates) : Prop :=
  (∀ later error earlier, history = later ++ .refused error :: earlier →
    (addCheckpointResponse (.error error)).status ≠ 409) ∧
  ∀ later id vetted error earlier, history = later ++ .rejected id vetted error :: earlier →
    (addCheckpointResponse (.error error)).status = 409 →
    (addCheckpointResponse (.error error)).body =
      decimal (latestSize (latestCommitted earlier vetted.origin)) ++ ['\n']

/-- Successive monitoring reads of an origin see sizes that do not decrease. -/
def MonitoringMonotone (history : History crates) : Prop :=
  ∀ later second between first earlier,
    history = later ++ .served second :: (between ++ .served first :: earlier) →
    first.origin = second.origin → first.size ≤ second.size

theorem conflict_of_status {error : WitnessError}
    (conflict : (addCheckpointResponse (.error error)).status = 409) :
    ∃ latest, error = .rejected (.sizeConflict latest) := by
  cases error with
  | rejected reject =>
      change (rejectResponse reject).status = 409 at conflict
      rw [rejectResponse_status] at conflict
      cases reject with
      | sizeConflict latest => exact ⟨latest, rfl⟩
      | malformed | unknownOrigin | noTrustedSignature | invalidTrustedSignature
      | oldSizeExceedsCheckpoint | emptySizeNonEmptyRoot | proofWithZeroOldSize
      | consistencyProofFailed | sameSizeRootMismatch => simp [Reject.status] at conflict
  | store | clock | sign | internal | panicked => simp [addCheckpointResponse] at conflict

theorem settle_conflict {vetted : Vetted crates} {timestamp : UInt64}
    {current : Option LogState} {latest : UInt64}
    (refused : settle identity vetted timestamp current =
      .error (.rejected (.sizeConflict latest))) : latest = latestSize current := by
  rw [settle] at refused
  split_ifs at refused
  · cases refused
    rfl
  · cases refused
  · cases refused
  · split at refused
    · rename_i error failed
      cases refused
      exact absurd rfl (checkConsistency_error failed latest)
    · exact absurd rfl (cosign_error refused latest)

theorem conflictsTellLatest {history : History crates} (explained : Explained identity history) :
    ConflictsTellLatest history := by
  constructor
  · intro later error earlier whole conflict
    subst whole
    obtain ⟨latest, rfl⟩ := conflict_of_status conflict
    obtain ⟨logs, body, refused⟩ := explained.at.1
    obtain ⟨reject, same, other⟩ := vet_error refused
    cases same
    exact other latest rfl
  · intro later id vetted error earlier whole conflict
    subst whole
    obtain ⟨latest, rfl⟩ := conflict_of_status conflict
    obtain ⟨-, reasons⟩ := explained.at.1
    rcases reasons with clock | ⟨timestamp, -, refused⟩
    · cases clock
    · rw [← settle_conflict refused]
      rfl

theorem monitoringMonotone {history : History crates} (explained : Explained identity history) :
    MonitoringMonotone history := by
  intro later second between first earlier whole same
  subst whole
  have seen := explained.at.1
  have rest := explained.at.2
  have before : latestCommitted earlier first.origin = some first := rest.at.1
  have after : latestCommitted (between ++ .served first :: earlier) second.origin =
      some second := seen
  have grown : Explained identity ((between ++ [.served first]) ++ earlier) := by
    simpa using rest
  have mono := latestSize_mono grown first.origin
  rw [List.append_assoc, List.singleton_append, before, same, after] at mono
  exact mono

/-- In every run the commits of an origin form one chain, an advance from a given size is
committed at most once, a 409 tells the size to retry with, and monitors never see a size
decrease. -/
theorem submissions_serialize (faithful : crates.toStoreCrates.Faithful) {world : World crates}
    (reachable : Reachable identity world) (origin : Text) :
    Chained (commitsOf world.history origin) ∧
      (∀ size, ((commitsOf world.history origin).filter fun commit =>
        commit.vetted.oldSize = size ∧ size < commit.vetted.newSize).length ≤ 1) ∧
      ConflictsTellLatest world.history ∧ MonitoringMonotone world.history := by
  have explained := (sound_of_reachable faithful reachable).explained
  have chained := chained_commitsOf explained origin
  refine ⟨chained, ?_, conflictsTellLatest explained, monitoringMonotone explained⟩
  intro size
  have sizes : ∀ commit ∈ commitsOf world.history origin,
      commit.vetted.newSize = commit.state.size := by
    intro commit member
    obtain ⟨later, earlier, -, explains, -⟩ := explained.of_mem (mem_commitsOf.mp member).1
    exact (commit_settled explains).cosigned.size.symm
  have same : (commitsOf world.history origin).filter (fun commit =>
        commit.vetted.oldSize = size ∧ size < commit.vetted.newSize) =
      (commitsOf world.history origin).filter (fun commit =>
        commit.vetted.oldSize = size ∧ size < commit.state.size) := by
    apply List.filter_congr
    intro commit member
    rw [sizes commit member]
  rw [same]
  exact chained.advance_once size

theorem two_submissions_serialize : ∃ world : World Reference.witnessCrates,
    Reachable Reference.identity world ∧
      (commitsOf world.history Reference.origin).map (·.state.size) = [2, 1] ∧
      Chained (commitsOf world.history Reference.origin) ∧
      ConflictsTellLatest world.history ∧ MonitoringMonotone world.history := by
  obtain ⟨witness, first, second, idle, one, two, _⟩ := Reference.two_records
  have sizes : (commitsOf (Reference.exchange second ++ Reference.exchange first)
      Reference.origin).map (·.state.size) = [2, 1] := by
    have older : first.state.size = 1 := congrArg MetamorphicLog.Head.size one.head
    have newer : second.state.size = 2 := congrArg MetamorphicLog.Head.size two.head
    simp [commitsOf, commits, Reference.exchange, one.stored, two.stored, older, newer]
  obtain ⟨chained, _, conflicts, monitoring⟩ :=
    submissions_serialize Reference.storeCrates_faithful idle.reachable Reference.origin
  exact ⟨_, idle.reachable, sizes, chained, conflicts, monitoring⟩

end MosskeysWitness
