import MosskeysWitness.Chain

/-! Clients that come back with the size a 409 told them: each time they are turned away again
somebody else got on. -/

namespace MosskeysWitness

namespace Retry

variable {crates : WitnessCrates} {identity : Identity}

structure Conflict (crates : WitnessCrates) where
  id : Nat
  vetted : Vetted crates
  told : UInt64

namespace Conflict

def error (conflict : Conflict crates) : WitnessError := .rejected (.sizeConflict conflict.told)

def event (conflict : Conflict crates) : Event crates :=
  .rejected conflict.id conflict.vetted conflict.error

/-- The line that the body of the 409 makes behind `old `, as it is read in the next submission. -/
def Answers (conflict : Conflict crates) (oldSize : UInt64) : Prop :=
  ∃ line, (addCheckpointResponse (.error conflict.error)).body = line ++ ['\n'] ∧
    parseOldSize ("old ".toList ++ line) = .ok oldSize

/-- `later` is the same client's next submission. -/
def Follows (later earlier : Conflict crates) : Prop := earlier.Answers later.vetted.oldSize

theorem Answers.told {conflict : Conflict crates} {oldSize : UInt64}
    (answers : conflict.Answers oldSize) : oldSize = conflict.told := by
  rcases answers with ⟨line, body, read⟩
  have written : decimal conflict.told ++ ['\n'] = line ++ ['\n'] := body
  rw [← List.append_cancel_right written] at read
  exact Except.ok.inj (read.symm.trans (parseOldSize_decimal conflict.told))

theorem answers_told (conflict : Conflict crates) : conflict.Answers conflict.told :=
  ⟨decimal conflict.told, rfl, parseOldSize_decimal conflict.told⟩

end Conflict

def advances (history : History crates) (origin : Text) : Nat :=
  (commitsOf history origin).countP fun commit => commit.vetted.oldSize < commit.vetted.newSize

theorem commits_append (later earlier : History crates) :
    commits (later ++ earlier) = commits later ++ commits earlier := by
  induction later with
  | nil => rfl
  | cons event later ih => cases event <;> simp [commits, ih]

theorem advances_append (later earlier : History crates) (origin : Text) :
    advances (later ++ earlier) origin = advances later origin + advances earlier origin := by
  simp only [advances, commitsOf, commits_append, List.filter_append, List.countP_append]

/-- The size of a log is another one only after a record took it further. -/
theorem advanced {later earlier : History crates}
    (explained : Explained identity (later ++ earlier)) {origin : Text}
    (grown : latestSize (latestCommitted (later ++ earlier) origin) ≠
      latestSize (latestCommitted earlier origin)) : 0 < advances later origin := by
  induction later with
  | nil => exact absurd rfl grown
  | cons event later ih =>
      have before := ih explained.2
      cases event with
      | committed commit =>
          rw [List.cons_append, latestCommitted_committed] at grown
          by_cases own : commit.state.origin = origin
          · rw [if_pos own] at grown
            have settled := commit_settled explained.1
            rw [own] at settled
            by_cases further : commit.vetted.oldSize < commit.vetted.newSize
            · simp [advances, commitsOf, commits, own, further]
            · have same : commit.vetted.oldSize = commit.vetted.newSize :=
                UInt64.le_antisymm commit.vetted.ordered (UInt64.not_lt.mp further)
              have kept : latestSize (some commit.state) =
                  latestSize (latestCommitted (later ++ earlier) origin) :=
                settled.cosigned.size.trans (same.symm.trans settled.latest)
              rw [kept] at grown
              simpa [advances, commitsOf, commits, own, further] using before grown
          · rw [if_neg own] at grown
            simpa [advances, commitsOf, commits, own] using before grown
      | vetted | refused | clockRead | rejected | responded | served => exact before grown

theorem settle_conflict_ne {vetted : Vetted crates} {timestamp told : UInt64}
    {current : Option LogState}
    (refused : settle identity vetted timestamp current =
      .error (.rejected (.sizeConflict told))) : vetted.oldSize ≠ latestSize current := by
  intro same
  rw [settle, if_neg (not_not.mpr same)] at refused
  split_ifs at refused
  · cases refused
  · cases refused
  · split at refused
    · rename_i failed
      cases refused
      exact checkConsistency_error failed told rfl
    · exact cosign_error refused told rfl

theorem Conflict.explained {conflict : Conflict crates} {earlier : History crates}
    (explains : Explains identity earlier conflict.event) :
    conflict.told = latestSize (latestCommitted earlier conflict.vetted.origin) ∧
      conflict.vetted.oldSize ≠ conflict.told := by
  rcases explains with ⟨-, clock | ⟨timestamp, -, refused⟩⟩
  · cases clock
  · have told := settle_conflict refused
    exact ⟨told, told ▸ settle_conflict_ne refused⟩

theorem met_newest {history : History crates} {newest : Conflict crates}
    {tried : List (Conflict crates)}
    (met : ((newest :: tried).map Conflict.event).Sublist history) :
    ∃ later earlier, history = later ++ newest.event :: earlier ∧
      (tried.map Conflict.event).Sublist earlier := by
  rw [List.map_cons] at met
  rcases List.cons_sublist_iff.mp met with ⟨front, back, rfl, inside, rest⟩
  rcases List.append_of_mem inside with ⟨later, between, rfl⟩
  exact ⟨later, between ++ back, by simp, rest.trans (List.sublist_append_right between back)⟩

/-- Each conflict of a client was met after one more advance than the one before it; `since` is what
happened from the first of them on. -/
theorem conflicts_climb {history : History crates} (explained : Explained identity history)
    {origin : Text} {newest : Conflict crates} {tried : List (Conflict crates)}
    (own : ∀ conflict ∈ newest :: tried, conflict.vetted.origin = origin)
    (chain : (newest :: tried).IsChain Conflict.Follows)
    (met : ((newest :: tried).map Conflict.event).Sublist history) :
    ∃ later since earlier, history = later ++ newest.event :: (since ++ earlier) ∧
      (newest.event :: since).getLast? = ((newest :: tried).map Conflict.event).getLast? ∧
      newest.told = latestSize (latestCommitted (since ++ earlier) origin) ∧
      tried.length ≤ advances since origin ∧ ∀ conflict ∈ tried, conflict.told < newest.told := by
  induction tried generalizing history newest with
  | nil =>
      rcases met_newest met with ⟨later, earlier, rfl, -⟩
      rcases Conflict.explained explained.at.1 with ⟨told, -⟩
      rw [own newest List.mem_cons_self] at told
      exact ⟨later, [], earlier, rfl, rfl, told, Nat.zero_le _, List.forall_mem_nil _⟩
  | cons before tried ih =>
      rcases met_newest met with ⟨later, earlier, rfl, rest⟩
      rcases Conflict.explained explained.at.1 with ⟨told, other⟩
      rw [own newest List.mem_cons_self] at told
      rw [List.isChain_cons_cons] at chain
      obtain ⟨between, since, earlier, rfl, first, told', climbed, smaller⟩ := ih explained.at.2
        (fun conflict member => own conflict (List.mem_cons_of_mem _ member)) chain.2 rest
      have whole : between ++ before.event :: (since ++ earlier) =
          (between ++ [before.event]) ++ (since ++ earlier) := by simp
      have past := explained.at.2
      rw [whole] at past told
      have apart : newest.told ≠ before.told := by
        rw [← Conflict.Answers.told chain.1]
        exact other.symm
      have further : 0 < advances (between ++ [before.event]) origin := by
        apply advanced past
        rw [← told, ← told']
        exact apart
      have larger : before.told < newest.told := by
        have mono := latestSize_mono past origin
        rw [← told, ← told'] at mono
        exact UInt64.lt_of_le_of_ne mono apart.symm
      refine ⟨later, (between ++ [before.event]) ++ since, earlier, by simp, ?_, ?_, ?_, ?_⟩
      · rw [List.append_assoc, List.singleton_append, ← List.cons_append, List.getLast?_append,
          first]
        simp [List.getLast?_cons]
      · rw [List.append_assoc]
        exact told
      · rw [advances_append, List.length_cons]
        omega
      · rw [List.forall_mem_cons]
        exact ⟨larger, fun conflict member => UInt64.lt_trans (smaller conflict member) larger⟩

/-- No client is turned away but for another one that got on. One that comes back with the size it
was told is told a larger one each time; since its first conflict at least as many records took the
log further as it came back; and once no such record comes in between, no size is told. -/
theorem conflicts_are_progress (faithful : crates.toStoreCrates.Faithful) {world : World crates}
    (reachable : Reachable identity world) {origin : Text} {newest : Conflict crates}
    {tried : List (Conflict crates)}
    (own : ∀ conflict ∈ newest :: tried, conflict.vetted.origin = origin)
    (chain : (newest :: tried).IsChain Conflict.Follows)
    (met : ((newest :: tried).map Conflict.event).Sublist world.history) :
    (∀ conflict ∈ tried, conflict.told < newest.told) ∧
      ∃ later since earlier, world.history = later ++ newest.event :: (since ++ earlier) ∧
        (newest.event :: since).getLast? = ((newest :: tried).map Conflict.event).getLast? ∧
        tried.length ≤ advances since origin ∧
        ∀ vetted : Vetted crates, vetted.origin = origin → newest.Answers vetted.oldSize →
          advances later origin = 0 → ∀ timestamp told,
            settle identity vetted timestamp (latestCommitted world.history origin) ≠
              .error (.rejected (.sizeConflict told)) := by
  have explained := (sound_of_reachable faithful reachable).explained
  obtain ⟨later, since, earlier, whole, first, told, climbed, smaller⟩ :=
    conflicts_climb explained own chain met
  refine ⟨smaller, later, since, earlier, whole, first, climbed, ?_⟩
  intro vetted _ answers still timestamp told' refused
  apply settle_conflict_ne refused
  rw [answers.told, told]
  by_contra grown
  have split : later ++ newest.event :: (since ++ earlier) =
      (later ++ [newest.event]) ++ (since ++ earlier) := by simp
  rw [whole, split] at explained grown
  have further := advanced explained (Ne.symm grown)
  rw [advances_append, still] at further
  exact absurd further (by simp [advances, commitsOf, commits, Conflict.event])

section Runs

open Reference

theorem submit_stale {witness : Witness crates} {vetted : Vetted crates} {timestamp : UInt64}
    (stale : vetted.oldSize ≠ latestSize (witness.latest vetted.origin)) :
    witness.submit vetted timestamp none =
      (.error (.rejected (.sizeConflict (latestSize (witness.latest vetted.origin)))),
        witness) :=
  submit_error none (if_pos stale)

theorem turned_away {witness : Witness witnessCrates} {nextId : Nat}
    {history : History witnessCrates} (idle : Idle witness nextId history) {old size : UInt64}
    (ordered : old ≤ size) (small : size.toNat ≤ 2 ^ 62)
    (stale : old ≠ latestSize (witness.latest origin)) {timestamp : UInt64}
    (timed : timestamp ≠ 0) :
    ∃ conflict : Conflict witnessCrates, conflict.vetted.origin = origin ∧
      conflict.vetted.oldSize = old ∧ conflict.told = latestSize (witness.latest origin) ∧
      Idle witness (nextId + 1) (conflict.event :: .clockRead nextId timestamp ::
        .vetted nextId conflict.vetted :: history) := by
  have fits := treeProof_fits storeCrates entries old small
  let vetted := extension idle.held ordered fits
  let conflict : Conflict witnessCrates := ⟨nextId, vetted, latestSize (witness.latest origin)⟩
  have accept : Step Reference.identity ⟨.up ⟨witness, [], []⟩, nextId, history⟩
      ⟨.up ⟨witness, [] ++ ⟨nextId, vetted, none⟩ :: [], []⟩, nextId + 1,
        .vetted nextId vetted :: history⟩ := .accept (vet_body idle.held ordered fits)
  have read : Step Reference.identity
      ⟨.up ⟨witness, [] ++ ⟨nextId, vetted, none⟩ :: [], []⟩, nextId + 1,
        .vetted nextId vetted :: history⟩
      ⟨.up ⟨witness, [] ++ ⟨nextId, vetted, some ⟨timestamp, timed⟩⟩ :: [], []⟩, nextId + 1,
        .clockRead nextId timestamp :: .vetted nextId vetted :: history⟩ :=
    .readClock (stamp_nonzero timed)
  have rejected : Step Reference.identity
      ⟨.up ⟨witness, [] ++ ⟨nextId, vetted, some ⟨timestamp, timed⟩⟩ :: [], []⟩, nextId + 1,
        .clockRead nextId timestamp :: .vetted nextId vetted :: history⟩
      ⟨.up ⟨witness, [] ++ [], []⟩, nextId + 1, conflict.event ::
        .clockRead nextId timestamp :: .vetted nextId vetted :: history⟩ :=
    .reject (submit_stale stale)
  exact ⟨conflict, rfl, rfl, rfl, ((idle.reachable.tail accept).tail read).tail rejected, idle.held,
    idle.stored⟩

/-- A client that starts at size 0 is told 1, comes back with it after the log has got to 2, and is
told 2. -/
theorem client_told_twice : ∃ (world : World witnessCrates) (first second : Conflict witnessCrates),
    Reachable Reference.identity world ∧
      first.told = 1 ∧ second.told = 2 ∧ first.told < second.told ∧
      ∃ later since earlier, world.history = later ++ second.event :: (since ++ earlier) ∧
        (second.event :: since).getLast? = some first.event ∧ 1 ≤ advances since origin := by
  rcases Reference.one_record with ⟨witness, commit, idle, one, stored⟩
  have sized : latestSize (witness.latest origin) = 1 := by
    rw [stored]
    exact congrArg MetamorphicLog.Head.size one.head
  obtain ⟨first, own, -, told, idle⟩ := turned_away idle (UInt64.zero_le : (0 : UInt64) ≤ 1)
    (by decide) (by rw [sized]; decide) (by decide : (150 : UInt64) ≠ 0)
  rw [sized] at told
  obtain ⟨next, commit', idle, two, stored⟩ := idle.extends 2 (by rw [sized]; decide) (by decide)
    200 (by decide)
  have sized : latestSize (next.latest origin) = 2 := by
    rw [stored]
    exact congrArg MetamorphicLog.Head.size two.head
  obtain ⟨second, own', again, told', idle⟩ := turned_away idle (by decide : (1 : UInt64) ≤ 2)
    (by decide) (by rw [sized]; decide) (by decide : (250 : UInt64) ≠ 0)
  rw [sized] at told'
  have follows : Conflict.Follows second first := by
    rw [Conflict.Follows, again, ← told]
    exact first.answers_told
  have owned : ∀ conflict ∈ [second, first], conflict.vetted.origin = origin := by
    simp [own, own']
  obtain ⟨smaller, later, since, earlier, whole, start, climbed, -⟩ :=
    conflicts_are_progress witnessCrates_faithful idle.reachable owned
      (.cons_cons follows (.singleton _))
      (.cons_cons second.event (.cons _ (.cons _ (.cons _ (.cons _ (.cons _ (.cons _
        (.cons_cons first.event (List.nil_sublist _)))))))))
  exact ⟨_, first, second, idle.reachable, told, told', smaller first (by simp), later, since,
    earlier, whole, start, climbed⟩

end Runs

end Retry

end MosskeysWitness
