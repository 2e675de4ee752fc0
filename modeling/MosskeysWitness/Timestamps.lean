import MosskeysWitness.Chain

/-! How the timestamps of the cosignatures relate to the order of the commits. The clock is read
before the lock is taken, so they follow the clock reads. -/

namespace MosskeysWitness

open MetamorphicLog (Head)

variable {crates : WitnessCrates} {identity : Identity}

/-- What the clock reads said, newest first. -/
def clockReads : History crates → List UInt64
  | [] => []
  | .clockRead _ timestamp :: earlier => timestamp :: clockReads earlier
  | _ :: earlier => clockReads earlier

def ClockForward (history : History crates) : Prop :=
  (clockReads history).Pairwise fun later earlier => earlier ≤ later

def ReadsClockBefore (history : History crates) (first second : Nat) : Prop :=
  ∃ later timestamp between timestamp' earlier,
    history =
      later ++ .clockRead second timestamp :: (between ++ .clockRead first timestamp' :: earlier)

/-- Of two commits of an origin the later one has no smaller timestamp. -/
def TimestampsFollowCommits (history : History crates) : Prop :=
  ∀ later second between first earlier,
    history = later ++ .committed second :: (between ++ .committed first :: earlier) →
    first.state.origin = second.state.origin → first.timestamp ≤ second.timestamp

theorem clockReads_append (later earlier : History crates) :
    clockReads (later ++ earlier) = clockReads later ++ clockReads earlier := by
  induction later with
  | nil => rfl
  | cons event later ih => cases event <;> simp [clockReads, ih]

theorem ClockForward.le {later between earlier : History crates} {id id' : Nat}
    {timestamp timestamp' : UInt64}
    (forward : ClockForward
      (later ++ .clockRead id timestamp :: (between ++ .clockRead id' timestamp' :: earlier))) :
    timestamp' ≤ timestamp := by
  rw [ClockForward, clockReads_append] at forward
  have rest := (List.pairwise_append.mp forward).2.1
  apply (List.pairwise_cons.mp rest).1
  rw [clockReads_append]
  exact List.mem_append_right _ List.mem_cons_self

theorem mem_order {α : Type} {items : List α} {left right : α} (leftMem : left ∈ items)
    (rightMem : right ∈ items) :
    left = right ∨ (∃ front between back, items = front ++ left :: (between ++ right :: back)) ∨
      ∃ front between back, items = front ++ right :: (between ++ left :: back) := by
  obtain ⟨front, back, rfl⟩ := List.append_of_mem leftMem
  rcases List.mem_append.mp rightMem with inFront | inBack
  · obtain ⟨start, between, rfl⟩ := List.append_of_mem inFront
    exact Or.inr (Or.inr ⟨start, between, back, by simp⟩)
  · rcases List.mem_cons.mp inBack with rfl | inside
    · exact Or.inl rfl
    · obtain ⟨between, rest, rfl⟩ := List.append_of_mem inside
      exact Or.inr (Or.inl ⟨front, between, rest, rfl⟩)

/-- A commit's request read the clock before the commit, once, and that is its timestamp. -/
theorem commit_clockRead {later earlier : History crates} {commit : Commit crates}
    (explained : Explained identity (later ++ .committed commit :: earlier)) :
    Event.clockRead commit.id commit.timestamp ∈ earlier := explained.at.1.2.1

/-- In every run with a clock that does not go backwards: if `first` was committed before
`second`, its timestamp is no larger, unless the request of `second` read the clock before that
of `first` did. In particular it is no larger when the request of `second` read the clock after
`first` was committed. -/
theorem timestamps_follow_clock (faithful : crates.toStoreCrates.Faithful) {world : World crates}
    (reachable : Reachable identity world) (forward : ClockForward world.history)
    {later between earlier : History crates} {first second : Commit crates}
    (whole : world.history =
      later ++ .committed second :: (between ++ .committed first :: earlier)) :
    (¬ ReadsClockBefore world.history second.id first.id → first.timestamp ≤ second.timestamp) ∧
      (Event.clockRead second.id second.timestamp ∈ between →
        first.timestamp ≤ second.timestamp) := by
  have explained := (sound_of_reachable faithful reachable).explained
  rw [whole] at explained forward ⊢
  have secondRead := commit_clockRead explained
  have firstRead := commit_clockRead explained.at.2
  have after : Event.clockRead second.id second.timestamp ∈ between →
      first.timestamp ≤ second.timestamp := by
    intro inside
    obtain ⟨newer, older, rfl⟩ := List.append_of_mem inside
    obtain ⟨recent, old, rfl⟩ := List.append_of_mem firstRead
    have reads : ClockForward ((later ++ .committed second :: newer) ++
        .clockRead second.id second.timestamp :: ((older ++ .committed first :: recent) ++
          .clockRead first.id first.timestamp :: old)) := by simpa using forward
    exact reads.le
  refine ⟨?_, after⟩
  intro notBefore
  rcases List.mem_append.mp secondRead with inside | rest
  · exact after inside
  · have before : Event.clockRead second.id second.timestamp ∈ earlier := by
      rcases List.mem_cons.mp rest with impossible | older
      · cases impossible
      · exact older
    rcases mem_order before firstRead with equal | ⟨front, middle, back, rfl⟩ |
      ⟨front, middle, back, rfl⟩
    · cases first
      cases second
      cases equal
      exact UInt64.le_refl _
    · have reads : ClockForward
          ((later ++ .committed second :: (between ++ .committed first :: front)) ++
            .clockRead second.id second.timestamp :: (middle ++
              .clockRead first.id first.timestamp :: back)) := by simpa using forward
      exact reads.le
    · -- the request of the later commit had read the clock first
      refine absurd ⟨later ++ .committed second :: (between ++ .committed first :: front),
        first.timestamp, middle, second.timestamp, back, ?_⟩ notBefore
      simp

theorem second_timestamp_follows : ∃ (world : World Reference.witnessCrates)
    (first second : Commit Reference.witnessCrates),
    Reachable Reference.identity world ∧ first.state.size = 1 ∧ second.state.size = 2 ∧
      first.timestamp ≤ second.timestamp := by
  obtain ⟨witness, first, second, idle, one, two, _⟩ := Reference.two_records
  have forward : ClockForward (Reference.exchange second ++ Reference.exchange first) := by
    simp [ClockForward, clockReads, Reference.exchange, one.timestamp, two.timestamp]
  have older : first.state.size = 1 := congrArg Head.size one.head
  have newer : second.state.size = 2 := congrArg Head.size two.head
  obtain ⟨_, after⟩ := timestamps_follow_clock Reference.storeCrates_faithful idle.reachable forward
    (show Reference.exchange second ++ Reference.exchange first =
      [.responded second] ++ .committed second ::
        ([.clockRead second.id second.timestamp, .vetted second.id second.vetted,
          .responded first] ++ .committed first ::
            [.clockRead first.id first.timestamp, .vetted first.id first.vetted]) from rfl)
  exact ⟨_, first, second, idle.reachable, older, newer, after List.mem_cons_self⟩

section Overtaken

open Reference

/-- The events of two requests of which the one that reads the clock first commits last, newest
first. -/
def overtaking (first second : Commit witnessCrates) : History witnessCrates :=
  [.committed second, .committed first, .clockRead first.id first.timestamp,
    .clockRead second.id second.timestamp, .vetted first.id first.vetted,
    .vetted second.id second.vetted]

theorem overtaken : ∃ machine first second,
    Reachable Reference.identity ⟨machine, 2, overtaking first second⟩ ∧ first.timestamp = 200 ∧
      second.timestamp = 100 ∧ first.state.origin = second.state.origin := by
  rcases booted with ⟨witness, idle, empty⟩
  have stored := idle.stored
  rw [empty] at stored
  have fits : ∀ size : UInt64, size.toNat ≤ 2 ^ 62 →
      (treeProof storeCrates entries 0 size).length ≤ maxProofLines := by
    intro size small
    exact treeProof_fits storeCrates entries 0 small
  let slow := extension idle.held (UInt64.zero_le) (fits 1 (by decide))
  let quick := extension idle.held (UInt64.le_refl 0) (fits 0 (by decide))
  let early : {timestamp : UInt64 // timestamp ≠ 0} := ⟨100, by decide⟩
  let late : {timestamp : UInt64 // timestamp ≠ 0} := ⟨200, by decide⟩
  obtain ⟨small, text, approved⟩ := extension_settles idle.held (UInt64.le_refl 0)
    (fits 0 (by decide)) stored rfl late.property
  have head := (storesTree_of_settle 0 approved rfl).1
  have tree := (storesTree_of_settle 0 approved rfl).2
  have latest : 0 = latestSize (some small) := (congrArg Head.size head).symm
  obtain ⟨large, text', approved'⟩ := extension_settles idle.held (UInt64.zero_le)
    (fits 1 (by decide)) tree latest early.property
  have named : small.origin = origin := settle_origin approved
  have named' : large.origin = origin := settle_origin approved'
  rw [← idle.identified, ← empty] at approved
  obtain ⟨next, submitted₁, _, identified, state⟩ := submitted approved
  have state' : next.latest origin = some small := state
  rw [← idle.identified, ← identified, ← state'] at approved'
  obtain ⟨last, submitted₂, _⟩ := submitted approved'
  let first : Commit witnessCrates := ⟨1, quick, 200, small, text⟩
  let second : Commit witnessCrates := ⟨0, slow, 100, large, text'⟩
  have acceptSlow : Step Reference.identity ⟨.up ⟨witness, [], []⟩, 0, []⟩
      ⟨.up ⟨witness, [⟨0, slow, none⟩], []⟩, 1, [.vetted 0 slow]⟩ :=
    .accept (vet_body idle.held _ _)
  have acceptQuick : Step Reference.identity
      ⟨.up ⟨witness, [⟨0, slow, none⟩], []⟩, 1, [.vetted 0 slow]⟩
      ⟨.up ⟨witness, [] ++ ⟨0, slow, none⟩ :: [⟨1, quick, none⟩], []⟩, 2,
        [.vetted 1 quick, .vetted 0 slow]⟩ :=
    .accept (vet_body idle.held _ _)
  have readSlow : Step Reference.identity
      ⟨.up ⟨witness, [] ++ ⟨0, slow, none⟩ :: [⟨1, quick, none⟩], []⟩, 2,
        [.vetted 1 quick, .vetted 0 slow]⟩
      ⟨.up ⟨witness, [] ++ ⟨0, slow, some early⟩ :: [⟨1, quick, none⟩], []⟩, 2,
        [.clockRead 0 100, .vetted 1 quick, .vetted 0 slow]⟩ :=
    .readClock (stamp_nonzero early.property)
  have readQuick : Step Reference.identity
      ⟨.up ⟨witness, [⟨0, slow, some early⟩] ++ ⟨1, quick, none⟩ :: [], []⟩, 2,
        [.clockRead 0 100, .vetted 1 quick, .vetted 0 slow]⟩
      ⟨.up ⟨witness, [⟨0, slow, some early⟩] ++ ⟨1, quick, some late⟩ :: [], []⟩, 2,
        [.clockRead 1 200, .clockRead 0 100, .vetted 1 quick, .vetted 0 slow]⟩ :=
    .readClock (stamp_nonzero late.property)
  have commitQuick : Step Reference.identity
      ⟨.up ⟨witness, [⟨0, slow, some early⟩] ++ ⟨1, quick, some late⟩ :: [], []⟩, 2,
        [.clockRead 1 200, .clockRead 0 100, .vetted 1 quick, .vetted 0 slow]⟩
      ⟨.up ⟨next, [] ++ ⟨0, slow, some early⟩ :: [], [first]⟩, 2, [.committed first,
        .clockRead 1 200, .clockRead 0 100, .vetted 1 quick, .vetted 0 slow]⟩ :=
    .commit approved submitted₁
  have commitSlow : Step Reference.identity
      ⟨.up ⟨next, [] ++ ⟨0, slow, some early⟩ :: [], [first]⟩, 2, [.committed first,
        .clockRead 1 200, .clockRead 0 100, .vetted 1 quick, .vetted 0 slow]⟩
      ⟨.up ⟨last, [] ++ [], [second, first]⟩, 2, overtaking first second⟩ :=
    .commit approved' submitted₂
  refine ⟨.up ⟨last, [], [second, first]⟩, first, second, ?_, rfl, rfl,
    named.trans named'.symm⟩
  exact (((((idle.reachable.tail acceptSlow).tail acceptQuick).tail readSlow).tail
    readQuick).tail commitQuick).tail commitSlow

/-- A request that reads the clock and stalls is committed with the earlier time. -/
theorem stalled_request_overtaken : ¬ ∀ world : World witnessCrates,
    Reachable Reference.identity world → ClockForward world.history →
      TimestampsFollowCommits world.history := by
  intro follows
  obtain ⟨machine, first, second, reachable, late, early, same⟩ := overtaken
  have forward : ClockForward (overtaking first second) := by
    simp [ClockForward, clockReads, overtaking, late, early]
  have ordered := follows _ reachable forward [] second [] first _ rfl same
  rw [late, early] at ordered
  exact absurd ordered (by decide)

end Overtaken

end MosskeysWitness
