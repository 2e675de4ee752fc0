import MosskeysWitness.StoredNote

/-! No two released heads of an origin disagree. -/

namespace MosskeysWitness

open MetamorphicLog (Head)

variable {crates : WitnessCrates} {identity : Identity}

/-- A cosigned head that has left the witness: its checkpoint was answered with 200, or a note
on it was served to a monitor. -/
inductive Released (history : History crates) (origin : Text) : Head → Prop
  | answered {commit : Commit crates} :
      Event.responded commit ∈ history → commit.vetted.origin = origin →
      Released history origin (crates.log.head commit.vetted.request.checkpoint)
  | served {state : LogState} {note : crates.log.SignedNote}
      {checkpoint : crates.log.Checkpoint} :
      Event.served state ∈ history → crates.log.parseNote state.note = .ok note →
      crates.log.parseCheckpoint (crates.log.text note) = .ok checkpoint →
      crates.log.origin checkpoint = origin →
      Released history origin (crates.log.head checkpoint)

def ConsistentWith (consistent : Head → Head → Prop) (old new : Head) : Prop :=
  new = old ∨ consistent old new

section Commits

variable {consistent : Head → Head → Prop}

theorem Settled.consistent_with (checkpoints : crates.log.CheckpointLaws)
    (laws : crates.log.ConsistencyLaws consistent) {vetted : Vetted crates} {timestamp : UInt64}
    {before state : LogState} {body : Text}
    (settled : Settled identity vetted timestamp (some before) state body)
    (rooted : before.size = 0 → before.root = crates.log.emptyRoot) :
    consistent before.head state.head := by
  have latest : vetted.oldSize = before.size := settled.latest
  rw [← settled.cosigned.head]
  by_cases later : 0 < vetted.oldSize
  · obtain ⟨current, oldCheckpoint, same, built, verified⟩ :=
      checkConsistency_ok settled.consistent later
    cases same
    obtain ⟨-, head⟩ := checkpoints.new_parts _ _ _ _ built
    have sound := laws.sound _ _ _ verified
    rw [head] at sound
    exact sound
  · -- old size 0: the stored head is the empty tree's, and every head extends it
    have zero : before.size = 0 := by
      rw [← latest]
      exact UInt64.le_zero_iff.mp (UInt64.not_lt.mp later)
    have empty : before.head = ⟨0, crates.log.emptyRoot⟩ := by
      rw [LogState.head, zero, rooted zero]
    rw [empty]
    exact laws.empty _ settled.emptyRoot

/-- The commits of an origin, newest first: each is consistent with all before it, is no smaller
than they are, and has the empty root where its size is 0. -/
structure Agree (consistent : Head → Head → Prop) (empty : Hash)
    (chain : List (Commit crates)) : Prop where
  consistent : chain.Pairwise fun later earlier =>
    consistent earlier.state.head later.state.head
  ordered : chain.Pairwise fun later earlier => earlier.state.size ≤ later.state.size
  rooted : ∀ commit ∈ chain, commit.state.size = 0 → commit.state.root = empty

theorem agree_commitsOf (checkpoints : crates.log.CheckpointLaws)
    (laws : crates.log.ConsistencyLaws consistent) {history : History crates}
    (explained : Explained identity history) (origin : Text) :
    Agree consistent crates.log.emptyRoot (commitsOf history origin) := by
  have chained := chained_commitsOf explained origin
  revert chained
  refine commitsOf_induction
    (motive := fun chain => Chained chain → Agree consistent crates.log.emptyRoot chain)
    ?_ ?_ explained
  · intro _
    exact ⟨.nil, .nil, by simp⟩
  · intro earlier commit _ _ settled ih chained
    obtain ⟨agree, ordered, rooted⟩ := ih chained.tail
    have sizes := chained.size_le
    rw [latestCommitted_eq_head] at settled
    have newRoot : commit.state.size = 0 → commit.state.root = crates.log.emptyRoot := by
      rw [settled.cosigned.size, settled.cosigned.root]
      exact settled.emptyRoot
    refine ⟨List.pairwise_cons.mpr ⟨?_, agree⟩, List.pairwise_cons.mpr ⟨?_, ordered⟩, ?_⟩
    · -- through the newest of the earlier commits, on which this one was decided
      intro other member
      cases front : commitsOf earlier origin with
      | nil =>
          rw [front] at member
          cases member
      | cons newest older =>
          rw [front] at member settled agree rooted
          have step := settled.consistent_with checkpoints laws
            (rooted newest List.mem_cons_self)
          rcases List.mem_cons.mp member with rfl | inside
          · exact step
          · exact laws.trans _ _ _ ((List.pairwise_cons.mp agree).1 other inside) step
    · intro other member
      calc
        other.state.size ≤ commit.vetted.oldSize := sizes other member
        _ ≤ commit.vetted.newSize := commit.vetted.ordered
        _ = commit.state.size := settled.cosigned.size.symm
    · intro other member
      rcases List.mem_cons.mp member with rfl | inside
      · exact newRoot
      · exact rooted other inside

theorem pairwise_cases {α : Type} {relation : α → α → Prop} {items : List α}
    (pairwise : items.Pairwise relation) {left right : α} (leftMem : left ∈ items)
    (rightMem : right ∈ items) : left = right ∨ relation left right ∨ relation right left := by
  induction pairwise with
  | nil => cases leftMem
  | cons head tail ih =>
      rcases List.mem_cons.mp leftMem with rfl | leftIn
      · rcases List.mem_cons.mp rightMem with rfl | rightIn
        · exact Or.inl rfl
        · exact Or.inr (Or.inl (head right rightIn))
      · rcases List.mem_cons.mp rightMem with rfl | rightIn
        · exact Or.inr (Or.inr (head left leftIn))
        · exact ih leftIn rightIn

end Commits

theorem Released.committed (notes : crates.log.NoteLaws) {history : History crates}
    (explained : Explained identity history) {origin : Text} {head : Head}
    (released : Released history origin head) :
    ∃ commit ∈ commitsOf history origin, commit.state.head = head := by
  cases released with
  | answered responded named =>
      rename_i commit
      obtain ⟨later, earlier, whole, committed, before⟩ := explained.of_mem responded
      obtain ⟨_, _, _, explains, _⟩ := before.of_mem committed
      have cosigned := (commit_settled explains).cosigned
      have member : Event.committed commit ∈ history := by
        rw [whole]
        exact List.mem_append_right _ (List.mem_cons_of_mem _ committed)
      exact ⟨commit, mem_commitsOf.mpr ⟨member, cosigned.origin.trans named⟩,
        cosigned.head.symm⟩
  | served served parsed read named =>
      rename_i state note checkpoint
      obtain ⟨later, earlier, whole, latest, before⟩ := explained.of_mem served
      obtain ⟨commit, inside, rfl⟩ := mem_journal.mp (LastWins.mem_of_lookup latest)
      have committed := mem_commits.mp inside
      obtain ⟨_, _, _, explains, _⟩ := before.of_mem committed
      have cosigned := (commit_settled explains).cosigned
      obtain ⟨stored, same, storedRead⟩ := cosigned.note_reads notes
      rw [same note parsed] at read
      rw [read] at storedRead
      cases storedRead
      have member : Event.committed commit ∈ history := by
        rw [whole]
        exact List.mem_append_right _ (List.mem_cons_of_mem _ committed)
      exact ⟨commit, mem_commitsOf.mpr ⟨member, cosigned.origin.trans named⟩,
        cosigned.head.symm⟩

/-- In every run, the larger of two released heads of an origin is consistent with the smaller
one, and heads of one size are the same. -/
theorem no_split_view (faithful : crates.toStoreCrates.Faithful) (notes : crates.log.NoteLaws)
    (checkpoints : crates.log.CheckpointLaws) {consistent : Head → Head → Prop}
    (laws : crates.log.ConsistencyLaws consistent) {world : World crates}
    (reachable : Reachable identity world) {origin : Text} {first second : Head}
    (released : Released world.history origin first)
    (releasedToo : Released world.history origin second) (ordered : first.size ≤ second.size) :
    ConsistentWith consistent first second ∧
      (first.size = second.size → first.root = second.root) := by
  have explained := (sound_of_reachable faithful reachable).explained
  obtain ⟨agree, sizes, -⟩ := agree_commitsOf checkpoints laws explained origin
  obtain ⟨one, oneMem, rfl⟩ := released.committed notes explained
  obtain ⟨other, otherMem, rfl⟩ := releasedToo.committed notes explained
  rcases pairwise_cases (agree.and sizes) oneMem otherMem with rfl | ⟨link, size⟩ | ⟨link, size⟩
  · exact ⟨Or.inl rfl, fun _ => rfl⟩
  · -- the smaller head was committed later, so the sizes are equal
    have same : other.state.head.size = one.state.head.size := UInt64.le_antisymm size ordered
    have root := laws.same_size _ _ link same
    have equal : other.state.head = one.state.head := Head.ext same root
    exact ⟨Or.inl equal, fun _ => root.symm⟩
  · exact ⟨Or.inr link, laws.same_size _ _ link⟩

theorem two_views_agree : ∃ world : World Reference.witnessCrates,
    Reachable Reference.identity world ∧
      Released world.history Reference.origin
        (treeHead Reference.storeCrates Reference.entries 1) ∧
      Released world.history Reference.origin
        (treeHead Reference.storeCrates Reference.entries 2) ∧
      ConsistentWith (Reference.Extends Reference.entries)
        (treeHead Reference.storeCrates Reference.entries 1)
        (treeHead Reference.storeCrates Reference.entries 2) := by
  obtain ⟨witness, first, second, idle, one, two, _⟩ := Reference.two_records
  have older : Released (Reference.exchange second ++ Reference.exchange first) Reference.origin
      (treeHead Reference.storeCrates Reference.entries 1) := by
    have released : Released (Reference.exchange second ++ Reference.exchange first)
        Reference.origin (Reference.witnessCrates.log.head first.vetted.request.checkpoint) :=
      .answered (by simp [Reference.exchange]) one.origin
    rw [one.requested] at released
    exact released
  have newer : Released (Reference.exchange second ++ Reference.exchange first) Reference.origin
      (treeHead Reference.storeCrates Reference.entries 2) := by
    have released : Released (Reference.exchange second ++ Reference.exchange first)
        Reference.origin (Reference.witnessCrates.log.head second.vetted.request.checkpoint) :=
      .answered (by simp [Reference.exchange]) two.origin
    rw [two.requested] at released
    exact released
  obtain ⟨agree, _⟩ := no_split_view Reference.storeCrates_faithful
    (Reference.noteLaws Reference.entries) (Reference.checkpointLaws Reference.entries)
    (Reference.consistencyLaws Reference.entries) idle.reachable older newer (by decide)
  exact ⟨_, idle.reachable, older, newer, agree⟩

end MosskeysWitness
