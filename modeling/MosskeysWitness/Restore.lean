import MosskeysWitness.Ledger
import MosskeysWitness.Reference.Fork
import MosskeysWitness.SplitView

/-! Copies of the state file that are put back. What the witness has promised holds as long as no
copy is older than the last record of the log; a copy that is older reopens every fork. -/

namespace MosskeysWitness

namespace Restore

open MetamorphicLog (Head)
open Relation (ReflTransGen)

variable {crates : WitnessCrates}

/-- A witness and the copies of its state file, each with the past it was made in. The history of
the world is the past of its file; all that ever happened is in `told`. -/
structure Archive (crates : WitnessCrates) where
  world : World crates
  copies : List (World crates)
  told : History crates

def Archive.initial : Archive crates := ⟨World.initial, [], []⟩

/-- Which past may be put in the place of which. -/
abbrev Policy (crates : WitnessCrates) := History crates → History crates → Prop

inductive Turn (identity : Identity) (policy : Policy crates) : Archive crates → Archive crates →
    Prop
  | serves {world next copies told} (event : Option (Event crates)) : Step identity world next →
      next.history = event.toList ++ world.history →
      Turn identity policy ⟨world, copies, told⟩ ⟨next, copies, event.toList ++ told⟩
  | copies {world copies told file nextId} :
      -- A copy has what a stop would leave, or a crash with a part of a line.
      Relation.ReflGen (Step identity) world ⟨.down file, nextId, world.history⟩ →
      Turn identity policy ⟨world, copies, told⟩
        ⟨world, ⟨.down file, nextId, world.history⟩ :: copies, told⟩
  | restores {file nextId history copies told copy} : copy ∈ copies →
      policy history copy.history →
      Turn identity policy ⟨⟨.down file, nextId, history⟩, copies, told⟩ ⟨copy, copies, told⟩

/-- No copy that is put back lacks the last record of the origin. -/
def UpToDate (origin : Text) : Policy crates := fun history past =>
  latestCommitted past origin = latestCommitted history origin

def Extends (consistent : Head → Head → Prop) (later earlier : Commit crates) : Prop :=
  consistent earlier.state.head later.state.head ∧ earlier.state.size ≤ later.state.size

/-- Every copy is a past of the witness, and whatever happened was explained by such a past. -/
structure Kept (identity : Identity) (archive : Archive crates) : Prop where
  world : Reachable identity archive.world
  known : archive.world.history ⊆ archive.told
  copies : ∀ copy ∈ archive.copies, Reachable identity copy ∧ copy.history ⊆ archive.told
  grounded : ∀ event ∈ archive.told, ∃ earlier, Explained identity (event :: earlier) ∧
    earlier ⊆ archive.told

/-- The commits of the origin over all the lives of the witness are one chain. -/
structure Unbroken (consistent : Head → Head → Prop) (origin : Text) (archive : Archive crates) :
    Prop where
  latest : latestCommitted archive.told origin = latestCommitted archive.world.history origin
  chain : (commitsOf archive.told origin).IsChain (Extends consistent)

section Runs

variable {identity : Identity} {policy : Policy crates} {archive next : Archive crates}

theorem kept_initial : Kept identity (Archive.initial : Archive crates) where
  world := .refl
  known := List.nil_subset _
  copies := by
    intro copy member
    cases member
  grounded := by
    intro event member
    cases member

theorem Kept.turn (faithful : crates.toStoreCrates.Faithful) (kept : Kept identity archive)
    (turn : Turn identity policy archive next) : Kept identity next := by
  cases turn with
  | @serves world after copies told event step added =>
      have reached : Reachable identity after := kept.world.tail step
      have more : told ⊆ event.toList ++ told := List.subset_append_right _ _
      exact {
        world := reached
        known := by
          rw [added]
          exact List.append_subset.mpr
            ⟨List.subset_append_left _ _, List.Subset.trans kept.known more⟩
        copies := by
          intro copy member
          exact ⟨(kept.copies copy member).1, List.Subset.trans (kept.copies copy member).2 more⟩
        grounded := by
          intro event' member
          rcases List.mem_append.mp member with fresh | before
          · cases Option.mem_toList.mp fresh
            have explained := (sound_of_reachable faithful reached).explained
            rw [added] at explained
            exact ⟨world.history, explained, List.Subset.trans kept.known more⟩
          · rcases kept.grounded event' before with ⟨earlier, explained, inside⟩
            exact ⟨earlier, explained, List.Subset.trans inside more⟩ }
  | @copies world copies told file nextId made =>
      have reached : Reachable identity ⟨.down file, nextId, world.history⟩ :=
        kept.world.trans made.to_reflTransGen
      exact {
        world := kept.world
        known := kept.known
        copies := by
          intro copy member
          rcases List.mem_cons.mp member with rfl | before
          · exact ⟨reached, kept.known⟩
          · exact kept.copies copy before
        grounded := kept.grounded }
  | restores member allowed =>
      rcases kept.copies _ member with ⟨reached, inside⟩
      exact ⟨reached, inside, kept.copies, kept.grounded⟩

theorem kept_of_run (faithful : crates.toStoreCrates.Faithful)
    (run : ReflTransGen (Turn identity policy) Archive.initial archive) :
    Kept identity archive := by
  induction run with
  | refl => exact kept_initial
  | tail _ turn ih => exact ih.turn faithful turn

theorem serves_run {world after : World crates} (run : ReflTransGen (Step identity) world after) :
    ∃ later, after.history = later ++ world.history ∧ ∀ copies told,
      ReflTransGen (Turn identity policy) ⟨world, copies, told⟩
        ⟨after, copies, later ++ told⟩ := by
  induction run with
  | refl => exact ⟨[], rfl, fun _ _ => .refl⟩
  | tail _ step ih =>
      rcases ih with ⟨later, grown, runs⟩
      rcases Ledger.step_adds step with ⟨event, added⟩
      refine ⟨event.toList ++ later, ?_, ?_⟩
      · rw [added, grown, List.append_assoc]
      · intro copies told
        rw [List.append_assoc]
        exact (runs copies told).tail (.serves event step added)

end Runs

section Promises

variable {identity : Identity} {consistent : Head → Head → Prop} {origin : Text}
  {archive next : Archive crates}

theorem Kept.settled (kept : Kept identity archive) {commit : Commit crates}
    (member : commit ∈ commitsOf archive.told origin) :
    ∃ current, Settled identity commit.vetted commit.timestamp current commit.state
      commit.body := by
  rcases kept.grounded _ (mem_commitsOf.mp member).1 with ⟨earlier, explained, -⟩
  exact ⟨_, commit_settled explained.1⟩

theorem Kept.rooted (kept : Kept identity archive) {commit : Commit crates}
    (member : commit ∈ commitsOf archive.told origin) (empty : commit.state.size = 0) :
    commit.state.root = crates.log.emptyRoot := by
  rcases kept.settled member with ⟨current, settled⟩
  rw [settled.cosigned.size] at empty
  rw [settled.cosigned.root]
  exact settled.emptyRoot empty

theorem Kept.released (kept : Kept identity archive) (notes : crates.log.NoteLaws) {head : Head}
    (released : Released archive.told origin head) :
    ∃ commit ∈ commitsOf archive.told origin, commit.state.head = head := by
  have found : ∃ event ∈ archive.told, ∀ earlier, Released (event :: earlier) origin head := by
    cases released with
    | answered responded named =>
        exact ⟨_, responded, fun _ => .answered List.mem_cons_self named⟩
    | served served parsed read named =>
        exact ⟨_, served, fun _ => .served List.mem_cons_self parsed read named⟩
  rcases found with ⟨event, member, released⟩
  rcases kept.grounded event member with ⟨earlier, explained, inside⟩
  rcases (released earlier).committed notes explained with ⟨commit, committed, same⟩
  rw [mem_commitsOf] at committed
  exact ⟨commit, mem_commitsOf.mpr ⟨List.cons_subset.mpr ⟨member, inside⟩ committed.1,
    committed.2⟩, same⟩

theorem released_mono {told more : History crates} {head : Head}
    (released : Released told origin head) (known : told ⊆ more) : Released more origin head := by
  cases released with
  | answered responded named => exact .answered (known responded) named
  | served served parsed read named => exact .served (known served) parsed read named

theorem commitsOf_committed (commit : Commit crates) (history : History crates) :
    commitsOf (.committed commit :: history) origin =
      if commit.state.origin = origin then commit :: commitsOf history origin
      else commitsOf history origin := by
  split
  · simp [commitsOf, commits, *]
  · simp [commitsOf, commits, *]

theorem Unbroken.commit (checkpoints : crates.log.CheckpointLaws)
    (laws : crates.log.ConsistencyLaws consistent) (kept : Kept identity archive)
    (unbroken : Unbroken consistent origin archive) {commit : Commit crates}
    (explains : Explains identity archive.world.history (.committed commit))
    (named : commit.state.origin = origin) :
    (commit :: commitsOf archive.told origin).IsChain (Extends consistent) := by
  have settled := commit_settled explains
  rw [named, ← unbroken.latest, latestCommitted_eq_head] at settled
  have chain := unbroken.chain
  have members := fun member => @Kept.rooted crates identity origin archive kept member
  cases before : commitsOf archive.told origin with
  | nil => exact .singleton commit
  | cons newest older =>
      rw [before] at settled chain members
      have link := settled.consistent_with checkpoints laws (members newest List.mem_cons_self)
      refine List.isChain_cons_cons.mpr ⟨⟨link, ?_⟩, chain⟩
      calc
        newest.state.size = commit.vetted.oldSize := settled.latest.symm
        _ ≤ commit.vetted.newSize := commit.vetted.ordered
        _ = commit.state.size := settled.cosigned.size.symm

theorem Unbroken.turn (faithful : crates.toStoreCrates.Faithful)
    (checkpoints : crates.log.CheckpointLaws) (laws : crates.log.ConsistencyLaws consistent)
    (kept : Kept identity archive) (unbroken : Unbroken consistent origin archive)
    (turn : Turn identity (UpToDate origin) archive next) : Unbroken consistent origin next := by
  cases turn with
  | @serves world after copies told event step added =>
      have explained := (sound_of_reachable faithful (kept.world.tail step)).explained
      cases event with
      | none => exact ⟨unbroken.latest.trans (congrArg (latestCommitted · origin) added.symm),
          unbroken.chain⟩
      | some event =>
          have history : after.history = event :: world.history := added
          cases event with
          | committed commit =>
              rw [history] at explained
              have latest : latestCommitted (.committed commit :: told) origin =
                  latestCommitted after.history origin := by
                rw [history, latestCommitted_committed, latestCommitted_committed,
                  unbroken.latest]
              refine ⟨latest, ?_⟩
              change (commitsOf (.committed commit :: told) origin).IsChain _
              rw [commitsOf_committed]
              split_ifs with named
              · exact unbroken.commit checkpoints laws kept explained.1 named
              · exact unbroken.chain
          | vetted | refused | clockRead | rejected | responded | served =>
              refine ⟨unbroken.latest.trans ?_, unbroken.chain⟩
              dsimp only
              rw [history]
              rfl
  | copies made => exact ⟨unbroken.latest, unbroken.chain⟩
  | restores member allowed => exact ⟨unbroken.latest.trans allowed.symm, unbroken.chain⟩

theorem unbroken_of_run (faithful : crates.toStoreCrates.Faithful)
    (checkpoints : crates.log.CheckpointLaws) (laws : crates.log.ConsistencyLaws consistent)
    (run : ReflTransGen (Turn identity (UpToDate origin)) Archive.initial archive) :
    Unbroken consistent origin archive := by
  induction run with
  | refl => exact ⟨rfl, .nil⟩
  | tail before turn ih =>
      exact ih.turn faithful checkpoints laws (kept_of_run faithful before) turn

theorem Unbroken.agree (laws : crates.log.ConsistencyLaws consistent)
    (unbroken : Unbroken consistent origin archive) {one other : Commit crates}
    (member : one ∈ commitsOf archive.told origin)
    (member' : other ∈ commitsOf archive.told origin) :
    one = other ∨ Extends consistent one other ∨ Extends consistent other one := by
  have transitive : IsTrans (Commit crates) (Extends consistent) := by
    constructor
    intro third second first later earlier
    exact ⟨laws.trans _ _ _ earlier.1 later.1, UInt64.le_trans earlier.2 later.2⟩
  exact pairwise_cases (List.isChain_iff_pairwise.mp unbroken.chain) member member'

/-- However often copies of the state file are put back, no two heads of a log that were ever
released contradict each other, if each copy has the last record of that log. -/
theorem restores_keep_promises (faithful : crates.toStoreCrates.Faithful)
    (notes : crates.log.NoteLaws) (checkpoints : crates.log.CheckpointLaws)
    (laws : crates.log.ConsistencyLaws consistent)
    (run : ReflTransGen (Turn identity (UpToDate origin)) Archive.initial archive)
    {first second : Head} (released : Released archive.told origin first)
    (released' : Released archive.told origin second) (ordered : first.size ≤ second.size) :
    ConsistentWith consistent first second ∧
      (first.size = second.size → first.root = second.root) := by
  have kept := kept_of_run faithful run
  have unbroken := unbroken_of_run faithful checkpoints laws run
  rcases kept.released notes released with ⟨one, member, rfl⟩
  rcases kept.released notes released' with ⟨other, member', rfl⟩
  rcases unbroken.agree laws member member' with rfl | ⟨link, size⟩ | ⟨link, size⟩
  · exact ⟨Or.inl rfl, fun _ => rfl⟩
  · have same : other.state.head.size = one.state.head.size := UInt64.le_antisymm size ordered
    have root := laws.same_size _ _ link same
    exact ⟨Or.inl (Head.ext same root), fun _ => root.symm⟩
  · exact ⟨Or.inr link, laws.same_size _ _ link⟩

end Promises

section Forgetting

variable {identity : Identity} {policy : Policy crates} {archive : Archive crates}
  {file after : List UInt8} {nextId : Nat} {past : History crates} {config : Config crates}
  {witness : Witness crates} {body : Text} {vetted : Vetted crates} {now : Option UInt64}
  {timestamp : {timestamp : UInt64 // timestamp ≠ 0}} {state : LogState} {signed : Text}

theorem answers (faithful : crates.toStoreCrates.Faithful)
    (reachable : Reachable identity ⟨.down file, nextId, past⟩)
    (named : config.name = identity.name)
    (started : Witness.fromConfig crates config (.ok identity.ed25519 : Except Empty LoadedKey)
      (.ok identity.mldsa44) false file = (.ok witness, after))
    (passed : vet crates witness.logs body = .ok vetted) (read : stamp now = .ok timestamp)
    (approved : settle identity vetted timestamp.val (latestCommitted past vetted.origin) =
      .ok (state, signed)) :
    ∃ next, ReflTransGen (Step identity) ⟨.down file, nextId, past⟩ next ∧
      next.history = [.responded ⟨nextId, vetted, timestamp.val, state, signed⟩,
        .committed ⟨nextId, vetted, timestamp.val, state, signed⟩,
        .clockRead nextId timestamp.val, .vetted nextId vetted] ++ past := by
  have boots : Step identity ⟨.down file, nextId, past⟩ ⟨.up ⟨witness, [], []⟩, nextId, past⟩ :=
    .boot named started
  have sound := sound_of_reachable faithful (reachable.tail boots)
  have durable := sound.durable
  have settles : settle witness.toIdentity vetted timestamp.val (witness.latest vetted.origin) =
      .ok (state, signed) := by
    rw [durable.1, sound.latest rfl]
    exact approved
  have accepts : Step identity ⟨.up ⟨witness, [], []⟩, nextId, past⟩
      ⟨.up ⟨witness, [] ++ ⟨nextId, vetted, none⟩ :: [], []⟩, nextId + 1,
        .vetted nextId vetted :: past⟩ := .accept passed
  have reads : Step identity
      ⟨.up ⟨witness, [] ++ ⟨nextId, vetted, none⟩ :: [], []⟩, nextId + 1,
        .vetted nextId vetted :: past⟩
      ⟨.up ⟨witness, [] ++ ⟨nextId, vetted, some timestamp⟩ :: [], []⟩, nextId + 1,
        .clockRead nextId timestamp.val :: .vetted nextId vetted :: past⟩ := .readClock read
  let commit : Commit crates := ⟨nextId, vetted, timestamp.val, state, signed⟩
  obtain ⟨next, submitted⟩ : ∃ next, witness.submit vetted timestamp.val none =
      (.ok signed, next) := ⟨_, submit_ok faithful settles⟩
  have commits : Step identity
      ⟨.up ⟨witness, [] ++ ⟨nextId, vetted, some timestamp⟩ :: [], []⟩, nextId + 1,
        .clockRead nextId timestamp.val :: .vetted nextId vetted :: past⟩
      ⟨.up ⟨next, [] ++ [], [commit]⟩, nextId + 1, .committed commit ::
        .clockRead nextId timestamp.val :: .vetted nextId vetted :: past⟩ :=
    .commit settles submitted
  have responds : Step identity
      ⟨.up ⟨next, [], [] ++ commit :: []⟩, nextId + 1, .committed commit ::
        .clockRead nextId timestamp.val :: .vetted nextId vetted :: past⟩
      ⟨.up ⟨next, [], [] ++ []⟩, nextId + 1, .responded commit :: .committed commit ::
        .clockRead nextId timestamp.val :: .vetted nextId vetted :: past⟩ := .respond
  have run := (((ReflTransGen.single boots).tail accepts).tail reads).tail commits
  exact ⟨_, run.tail responds, rfl⟩

/-- A copy that is put back forgets what is not in it: a witness that comes up on it cosigns
whatever the past of the copy admits, beside all that was ever released. -/
theorem restored_copy_forgets (faithful : crates.toStoreCrates.Faithful)
    (run : ReflTransGen (Turn identity policy) Archive.initial archive)
    {stopped : List UInt8} (down : archive.world.machine = .down stopped)
    (copied : ⟨.down file, nextId, past⟩ ∈ archive.copies)
    (allowed : policy archive.world.history past) (named : config.name = identity.name)
    (started : Witness.fromConfig crates config (.ok identity.ed25519 : Except Empty LoadedKey)
      (.ok identity.mldsa44) false file = (.ok witness, after))
    (passed : vet crates witness.logs body = .ok vetted) (read : stamp now = .ok timestamp)
    (approved : settle identity vetted timestamp.val (latestCommitted past vetted.origin) =
      .ok (state, signed)) :
    ∃ next, ReflTransGen (Turn identity policy) archive next ∧
      Released next.told vetted.origin (crates.log.head vetted.request.checkpoint) ∧
      ∀ head, Released archive.told vetted.origin head → Released next.told vetted.origin head := by
  have kept := kept_of_run faithful run
  rcases archive with ⟨⟨machine, id, history⟩, copies, told⟩
  dsimp only at down
  subst down
  have restores : Turn identity policy ⟨⟨.down stopped, id, history⟩, copies, told⟩
      ⟨⟨.down file, nextId, past⟩, copies, told⟩ := .restores copied allowed
  rcases answers faithful (kept.copies _ copied).1 named started passed read approved with
    ⟨world, steps, events⟩
  rcases @serves_run _ _ policy _ _ steps with ⟨later, grown, runs⟩
  have answered := List.append_cancel_right (grown.symm.trans events)
  refine ⟨_, (ReflTransGen.single restores).trans (runs copies told), ?_, ?_⟩
  · rw [answered]
    exact .answered List.mem_cons_self rfl
  · intro head released
    exact released_mono released (List.subset_append_right _ _)

end Forgetting

section Examples

open Reference

variable {policy : Policy witnessCrates}

theorem copied_before {witness : Witness witnessCrates} {nextId : Nat}
    {history : History witnessCrates} (idle : Idle witness nextId history) :
    ReflTransGen (Turn identity policy) Archive.initial
      ⟨⟨.down witness.store.inner.file, nextId, history⟩, [World.initial], history⟩ := by
  have copied : Turn identity policy (Archive.initial : Archive witnessCrates)
      ⟨World.initial, [World.initial], []⟩ := .copies .refl
  rcases @serves_run _ _ policy _ _ (idle.reachable.tail .stop) with ⟨later, grown, runs⟩
  have all : later = history := (List.append_nil later).symm.trans grown.symm
  have served := runs [World.initial] []
  rw [all, List.append_nil] at served
  exact (ReflTransGen.single copied).trans served

theorem copied_after {witness : Witness witnessCrates} {nextId : Nat}
    {history : History witnessCrates} (idle : Idle witness nextId history) :
    ∃ archive, ReflTransGen (Turn identity (UpToDate origin)) Archive.initial archive ∧
      archive.told = history ∧ archive.copies.length = 2 := by
  have copied : Turn identity (UpToDate origin)
      ⟨⟨.down witness.store.inner.file, nextId, history⟩, [World.initial], history⟩
      ⟨⟨.down witness.store.inner.file, nextId, history⟩,
        [⟨.down witness.store.inner.file, nextId, history⟩, World.initial], history⟩ :=
    .copies .refl
  have restored : Turn identity (UpToDate origin)
      ⟨⟨.down witness.store.inner.file, nextId, history⟩,
        [⟨.down witness.store.inner.file, nextId, history⟩, World.initial], history⟩ _ :=
    .restores List.mem_cons_self rfl
  exact ⟨_, ((copied_before idle).tail copied).tail restored, rfl, rfl⟩

theorem released_of_exchange {history : History witnessCrates} {commit : Commit witnessCrates}
    {nextId : Nat} {timestamp size : UInt64} (extended : Extended commit nextId timestamp size)
    (inside : exchange commit ⊆ history) :
    Released history origin (treeHead storeCrates entries size) := by
  have released : Released history origin
      (witnessCrates.log.head commit.vetted.request.checkpoint) :=
    .answered (inside List.mem_cons_self) extended.origin
  rwa [extended.requested] at released

/-- Two heads that are released over a restore agree. -/
theorem promises_are_kept : ∃ archive : Archive witnessCrates,
    ReflTransGen (Turn identity (UpToDate origin)) Archive.initial archive ∧
      archive.copies.length = 2 ∧
      ConsistentWith (Reference.Extends entries) (treeHead storeCrates entries 1)
        (treeHead storeCrates entries 2) := by
  rcases two_records with ⟨witness, first, second, idle, one, two, -⟩
  rcases copied_after idle with ⟨archive, run, told, copies⟩
  have older : Released archive.told origin (treeHead storeCrates entries 1) := by
    rw [told]
    exact released_of_exchange one (List.subset_append_right _ _)
  have newer : Released archive.told origin (treeHead storeCrates entries 2) := by
    rw [told]
    exact released_of_exchange two (List.subset_append_left _ _)
  have promises := restores_keep_promises witnessCrates_faithful (noteLaws entries)
    (checkpointLaws entries) (consistencyLaws entries) run older newer (by decide)
  exact ⟨archive, run, copies, promises.1⟩

/-- The log's request for its stray checkpoint as a first one. -/
abbrev firstStray {logs : Allowlist witnessCrates}
    (held : logs.vkeys.lookup origin = some [logKey]) : Vetted witnessCrates :=
  stray held (UInt64.zero_le : 0 ≤ (1 : UInt64))

theorem firstStray_settles {logs : Allowlist witnessCrates}
    (held : logs.vkeys.lookup origin = some [logKey]) {timestamp : UInt64} (timed : timestamp ≠ 0) :
    ∃ state signed, settle identity (firstStray held) timestamp none = .ok (state, signed) :=
  settle_succeeds (signersSucceed entries (by decide) _ _) (newNoteAccepts entries) timed rfl
    (fun hollow => absurd hollow (by decide : (1 : UInt64) ≠ 0)) (fun _ => rfl)
    (if_neg (by decide : ¬ (0 : UInt64) < 0))

/-- With the empty file put back, a second head is released at the size of the first, with another
root. -/
theorem empty_copy_forks : ∃ (archive : Archive witnessCrates) (root : Hash),
    ReflTransGen (Turn identity fun _ _ => True) Archive.initial archive ∧
      root ≠ (treeHead storeCrates entries 1).root ∧
      Released archive.told origin (treeHead storeCrates entries 1) ∧
      Released archive.told origin ⟨1, root⟩ := by
  rcases one_record with ⟨witness, first, idle, extended, -⟩
  have run := @copied_before (fun _ _ => True) _ _ _ idle
  have released := released_of_exchange extended (List.Subset.refl _)
  rcases config_starts with ⟨fresh, started, -⟩
  have held : fresh.logs.vkeys.lookup origin = some [logKey] := by
    rw [(Witness.fromConfig_starts started).logs]
    exact Finmap.lookup_insert _
  have timed : (100 : UInt64) ≠ 0 := by decide
  rcases firstStray_settles held timed with ⟨state, signed, settles⟩
  have passed := vet_stray held (UInt64.zero_le : 0 ≤ (1 : UInt64))
  rcases restored_copy_forgets witnessCrates_faithful run rfl List.mem_cons_self trivial rfl started
    passed (stamp_nonzero timed) settles with ⟨archive, more, second, kept⟩
  exact ⟨archive, strayRoot (treeHead storeCrates entries 1).root, run.trans more, strayRoot_ne _,
    kept _ released, second⟩

end Examples

end Restore

end MosskeysWitness
