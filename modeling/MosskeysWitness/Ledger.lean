import MosskeysWitness.Chain
import MosskeysWitness.Library.Linear
import MosskeysWitness.Monitoring

/-! What the witness amounts to for those who use it: one ledger, asked one thing at a time, that
never dies and never forgets. -/

namespace MosskeysWitness

namespace Ledger

abbrev Heads := Text → Option LogState

/-- The latest state of every origin, and the allowlists the ledger was given, newest first. -/
structure Book (crates : WitnessCrates) where
  heads : Heads
  lists : List (Allowlist crates)

/-- A client submits a body and reads by a hash, and the operator gives allowlists. -/
inductive Op (crates : WitnessCrates) where
  | submit (body : Text)
  | read (hash : Text)
  | install (logs : Allowlist crates)

inductive Reply where
  | decided (outcome : Except WitnessError Text)
  | stored (note : Text)
  | missing
  | installed

variable {crates : WitnessCrates}

def readHash (crates : WitnessCrates) (state : LogState) : Text :=
  hex (crates.sha256 (Utf8.encode state.origin)).bytes

/-- An allowlist that was in force at some time lets the body in. -/
def Admits (lists : List (Allowlist crates)) (body : Text) (vetted : Vetted crates) : Prop :=
  ∃ logs ∈ lists, vet crates logs body = .ok vetted

/-- What the ledger may answer, with whatever the clock says. Only the newest allowlist turns a
body away. -/
inductive Applies (identity : Identity) (book : Book crates) :
    Op crates → Reply → Book crates → Prop
  | approves {body vetted timestamp state answer} : Admits book.lists body vetted →
      timestamp ≠ 0 →
      settle identity vetted timestamp (book.heads vetted.origin) = .ok (state, answer) →
      Applies identity book (.submit body) (.decided (.ok answer))
        { book with heads := Function.update book.heads vetted.origin (some state) }
  | refuses {body vetted timestamp error} : Admits book.lists body vetted → timestamp ≠ 0 →
      settle identity vetted timestamp (book.heads vetted.origin) = .error error →
      Applies identity book (.submit body) (.decided (.error error)) book
  | clockless {body vetted} : Admits book.lists body vetted →
      Applies identity book (.submit body) (.decided (.error .clock)) book
  | turnsAway {logs body error} : book.lists.head? = some logs →
      vet crates logs body = .error error →
      Applies identity book (.submit body) (.decided (.error error)) book
  | reads {origin state} : book.heads origin = some state →
      Applies identity book (.read (readHash crates state)) (.stored state.note) book
  | misses {hash} : (∀ origin state, book.heads origin = some state →
      readHash crates state ≠ hash) → Applies identity book (.read hash) .missing book
  | installs (logs : Allowlist crates) : Applies identity book (.install logs) .installed
      { book with lists := logs :: book.lists }

def ledger (identity : Identity) : Linear.Object (Book crates) (Op crates) Reply :=
  ⟨⟨fun _ => none, []⟩, Applies identity⟩

/-- Submissions that are let in have the ids of their requests, and all else is numbered apart from
them. -/
abbrev Name := Nat ⊕ Nat

abbrev Shown (crates : WitnessCrates) := List (Linear.Event Name (Op crates) Reply)

def atOnce (number : Nat) (op : Op crates) (reply : Reply) : Shown crates :=
  [.invoked (.inr number) op, .answered (.inr number) reply]

def deaths : Machine crates → Shown crates
  | .up _ => []
  | .down _ => [.died]

/-- What is seen of a step that adds this event, or none. -/
inductive Shows (number : Nat) (before after : Machine crates) :
    Option (Event crates) → Shown crates → Prop
  | installed {process} : after = .up process → Shows number before after none
      (atOnce number (.install process.witness.logs) .installed)
  | ended {file} : after = .down file → Shows number before after none [.died]
  | submitted {process body vetted} (id : Nat) : before = .up process →
      vet crates process.witness.logs body = .ok vetted →
      Shows number before after (some (.vetted id vetted)) [.invoked (.inl id) (.submit body)]
  | refused {process body error} : before = .up process →
      vet crates process.witness.logs body = .error error →
      Shows number before after (some (.refused error))
        (atOnce number (.submit body) (.decided (.error error)))
  | read {process hash state} : before = .up process →
      process.witness.store.FindsByOriginHash crates.toStoreCrates hash state →
      Shows number before after (some (.served state))
        (atOnce number (.read hash) (.stored state.note))
  | clockRead (id : Nat) (timestamp : UInt64) :
      Shows number before after (some (.clockRead id timestamp)) []
  | committed (commit : Commit crates) :
      Shows number before after (some (.committed commit)) (deaths after)
  | rejected (id : Nat) (vetted : Vetted crates) (error : WitnessError) :
      Shows number before after (some (.rejected id vetted error))
        [.answered (.inl id) (.decided (.error error))]
  | responded (commit : Commit crates) :
      Shows number before after (some (.responded commit))
        [.answered (.inl commit.id) (.decided (.ok commit.body))]

/-- What clients and the operator see of a run: the calls and the answers behind its steps, the
reads that find nothing, and the ends of processes. -/
inductive Observed (identity : Identity) : World crates → Shown crates → Prop
  | start : Observed identity World.initial []
  | step {world next shown event seen} : Observed identity world shown →
      Step identity world next → next.history = event.toList ++ world.history →
      Shows shown.length world.machine next.machine event seen →
      Observed identity next (shown ++ seen)
  | missed {world shown process} (hash : Text) : Observed identity world shown →
      world.machine = .up process →
      (∀ state, ¬ process.witness.store.FindsByOriginHash crates.toStoreCrates hash state) →
      Observed identity world (shown ++ atOnce shown.length (.read hash) .missing)

variable {identity : Identity}

theorem Observed.reachable {world : World crates} {shown : Shown crates}
    (observed : Observed identity world shown) : Reachable identity world := by
  induction observed with
  | start => exact .refl
  | step _ step _ _ ih => exact ih.tail step
  | missed _ _ _ _ ih => exact ih

/-- A step adds one event or none. -/
theorem step_adds {world next : World crates} (step : Step identity world next) :
    ∃ event : Option (Event crates), next.history = event.toList ++ world.history := by
  cases step with
  | boot | swap | stop => exact ⟨none, rfl⟩
  | accept | refuse | readClock | clockFails | commit | reject | respond | monitor =>
      exact ⟨some _, rfl⟩
  | crash count approved =>
      dsimp only
      split
      · exact ⟨some _, rfl⟩
      · exact ⟨none, rfl⟩

theorem step_shows {world next : World crates} (number : Nat) (step : Step identity world next) :
    ∃ event seen, next.history = event.toList ++ world.history ∧
      Shows number world.machine next.machine event seen := by
  cases step with
  | boot | swap => exact ⟨none, _, rfl, .installed rfl⟩
  | stop => exact ⟨none, _, rfl, .ended rfl⟩
  | accept passed => exact ⟨some _, _, rfl, .submitted _ rfl passed⟩
  | refuse failed => exact ⟨some _, _, rfl, .refused rfl failed⟩
  | readClock => exact ⟨some _, _, rfl, .clockRead _ _⟩
  | clockFails | reject => exact ⟨some _, _, rfl, .rejected _ _ _⟩
  | commit => exact ⟨some _, _, rfl, .committed _⟩
  | respond => exact ⟨some _, _, rfl, .responded _⟩
  | monitor found => exact ⟨some _, _, rfl, .read rfl found⟩
  | crash count approved =>
      dsimp only
      split
      · exact ⟨some _, _, rfl, .committed _⟩
      · exact ⟨none, _, rfl, .ended rfl⟩

theorem observed_of_reachable {world : World crates} (reachable : Reachable identity world) :
    ∃ shown, Observed identity world shown := by
  induction reachable with
  | refl => exact ⟨[], .start⟩
  | tail _ step ih =>
      rcases ih with ⟨shown, observed⟩
      rcases step_shows shown.length step with ⟨event, seen, added, shows⟩
      exact ⟨_, .step observed step added shows⟩

/-- The submissions that may still take effect, with the bodies they came with. -/
def Waiting (bodies : Nat → Text) (machine : Machine crates) (name : Name) (op : Op crates) :
    Prop :=
  match machine with
  | .down _ => False
  | .up process =>
      ∃ request ∈ process.pending, name = .inl request.id ∧ op = .submit (bodies request.id)

/-- The ledger has the allowlist in force, it lets in what is in flight, and what is still to be
answered has taken effect. -/
structure Follows (bodies : Nat → Text) (lists : List (Allowlist crates))
    (order : List (Linear.Effect Name (Op crates) Reply)) (process : Process crates) : Prop where
  current : lists.head? = some process.witness.logs
  admitted : ∀ request ∈ process.pending, Admits lists (bodies request.id) request.vetted
  replies : ∀ commit ∈ process.replies,
    ∃ op, ⟨.inl commit.id, op, .decided (.ok commit.body)⟩ ∈ order

/-- The committed records, the turned away submissions, the reads and the allowlists so far, in
their order, are a run of the ledger that explains what was seen. -/
structure Linearizes (identity : Identity) (bodies : Nat → Text) (lists : List (Allowlist crates))
    (world : World crates) (shown : Shown crates)
    (order : List (Linear.Effect Name (Op crates) Reply)) : Prop where
  standing : Linear.Standing (ledger identity) shown order
    ⟨latestCommitted world.history, lists⟩ (Waiting bodies world.machine)
  follows : ∀ process, world.machine = .up process → Follows bodies lists order process
  numbered : ∀ id op, .invoked (.inl id) op ∈ shown → id < world.nextId
  counted : ∀ number op, .invoked (.inr number) op ∈ shown → number < shown.length

theorem latestCommitted_commit (commit : Commit crates) (earlier : History crates) :
    latestCommitted (.committed commit :: earlier) =
      Function.update (latestCommitted earlier) commit.state.origin (some commit.state) := by
  funext origin
  rw [latestCommitted_committed]
  by_cases same : commit.state.origin = origin
  · rw [if_pos same, ← same, Function.update_self]
  · rw [if_neg same, Function.update_of_ne (Ne.symm same)]

section Steps

variable {bodies : Nat → Text} {lists : List (Allowlist crates)} {world next : World crates}
  {shown : Shown crates} {order : List (Linear.Effect Name (Op crates) Reply)}

theorem waiting_left {witness next : Witness crates} {front back : List (Pending crates)}
    {request : Pending crates} {replies replies' : List (Commit crates)} {history : History crates}
    (queued : Queued history ⟨witness, front ++ request :: back, replies⟩) {name : Name}
    {op : Op crates} (waits : Waiting bodies (.up ⟨next, front ++ back, replies'⟩) name op) :
    Waiting bodies (.up ⟨witness, front ++ request :: back, replies⟩) name op ∧
      name ≠ .inl request.id := by
  rcases waits with ⟨other, member, rfl, rfl⟩
  have distinct := queued.distinct
  rw [List.map_append, List.map_cons, List.nodup_middle] at distinct
  refine ⟨⟨other, ?_, rfl, rfl⟩, ?_⟩
  · exact (removed_sublist front back request).subset member
  · intro same
    apply (List.nodup_cons.mp distinct).1
    rw [← List.map_append, ← Sum.inl.inj same]
    exact List.mem_map_of_mem member

theorem Admits.later {body : Text} {vetted : Vetted crates} (admits : Admits lists body vetted)
    (logs : Allowlist crates) : Admits (logs :: lists) body vetted := by
  rcases admits with ⟨older, member, passed⟩
  exact ⟨older, List.mem_cons_of_mem _ member, passed⟩

/-- The queue may lose requests and read the clock for others, and answers may be given. -/
theorem Follows.fewer {witness next : Witness crates} {pending rest : List (Pending crates)}
    {replies fewer : List (Commit crates)}
    (follows : Follows bodies lists order ⟨witness, pending, replies⟩)
    (logs : next.logs = witness.logs)
    (left : ∀ request ∈ rest, ∃ timestamp, ⟨request.id, request.vetted, timestamp⟩ ∈ pending)
    (kept : fewer ⊆ replies) : Follows bodies lists order ⟨next, rest, fewer⟩ where
  current := by
    rw [follows.current, logs]
  admitted := by
    intro request member
    rcases left request member with ⟨timestamp, before⟩
    exact follows.admitted ⟨request.id, request.vetted, timestamp⟩ before
  replies := fun commit member => follows.replies commit (kept member)

theorem Follows.later {process : Process crates} (follows : Follows bodies lists order process)
    (effects : List (Linear.Effect Name (Op crates) Reply)) :
    Follows bodies lists (order ++ effects) process where
  current := follows.current
  admitted := follows.admitted
  replies := by
    intro commit member
    rcases follows.replies commit member with ⟨op, taken⟩
    exact ⟨op, List.mem_append_left _ taken⟩

theorem Linearizes.numbered_append (linearizes : Linearizes identity bodies lists world shown order)
    {seen : Shown crates} (unnamed : ∀ id op, .invoked (.inl id) op ∉ seen) :
    ∀ id op, .invoked (.inl id) op ∈ shown ++ seen → id < world.nextId := by
  intro id op member
  rcases List.mem_append.mp member with before | new
  · exact linearizes.numbered id op before
  · exact absurd new (unnamed id op)

theorem Linearizes.counted_append (linearizes : Linearizes identity bodies lists world shown order)
    {seen : Shown crates} (uncounted : ∀ number op, .invoked (.inr number) op ∉ seen) :
    ∀ number op, .invoked (.inr number) op ∈ shown ++ seen → number < (shown ++ seen).length := by
  intro number op member
  rw [List.length_append]
  rcases List.mem_append.mp member with before | new
  · exact Nat.lt_add_right _ (linearizes.counted number op before)
  · exact absurd new (uncounted number op)

theorem linearizes_start :
    Linearizes identity bodies [] (World.initial : World crates) [] [] where
  standing := Linear.Standing.start
  follows := by
    intro process up
    cases up
  numbered := by simp
  counted := by simp

theorem Linearizes.atOnce (linearizes : Linearizes identity bodies lists world shown order)
    {op : Op crates} {reply : Reply} {later : List (Allowlist crates)} (events : History crates)
    (applies : Applies identity ⟨latestCommitted world.history, lists⟩ op reply
      ⟨latestCommitted (events ++ world.history), later⟩) {machine : Machine crates}
    (waiting : ∀ name op, Waiting bodies machine name op → Waiting bodies world.machine name op)
    (follows : ∀ process, machine = .up process → Follows bodies later order process) :
    Linearizes identity bodies later ⟨machine, world.nextId, events ++ world.history⟩
      (shown ++ Ledger.atOnce shown.length op reply)
      (order ++ [⟨.inr shown.length, op, reply⟩]) where
  standing := by
    have fresh : ∀ op, .invoked (.inr shown.length) op ∉ shown := by
      intro op invoked
      exact absurd (linearizes.counted shown.length op invoked) (Nat.lt_irrefl _)
    have invoked := linearizes.standing.invoke fresh op
    have taken := (invoked.effect (Or.inr ⟨rfl, rfl⟩) applies).answer
      (List.mem_append_right _ (List.mem_singleton_self _))
    rw [Ledger.atOnce, List.append_cons]
    refine taken.drop ?_
    intro name op waits
    have before := waiting name op waits
    refine ⟨Or.inl before, ?_⟩
    rintro rfl
    cases running : world.machine with
    | down file =>
        rw [running] at before
        exact before
    | up process =>
        rw [running] at before
        rcases before with ⟨request, -, same, -⟩
        cases same
  follows := fun process up => (follows process up).later _
  numbered := linearizes.numbered_append (by simp [Ledger.atOnce])
  counted := by
    intro number op member
    simp only [Ledger.atOnce, List.mem_append, List.mem_cons, List.not_mem_nil, or_false,
      reduceCtorEq, Linear.Event.invoked.injEq, Sum.inr.injEq] at member
    rw [List.length_append]
    rcases member with before | ⟨rfl, -⟩
    · exact Nat.lt_add_right _ (linearizes.counted number op before)
    · simp [Ledger.atOnce]

theorem Linearizes.takes (linearizes : Linearizes identity bodies lists world shown order)
    {witness : Witness crates} {front back : List (Pending crates)}
    {replies : List (Commit crates)} (request : Pending crates)
    (up : world.machine = .up ⟨witness, front ++ request :: back, replies⟩)
    (queued : Queued world.history ⟨witness, front ++ request :: back, replies⟩)
    {outcome : Except WitnessError Text} {heads : Heads}
    (applies : Applies identity ⟨latestCommitted world.history, lists⟩
      (.submit (bodies request.id)) (.decided outcome) ⟨heads, lists⟩)
    (after : Witness crates) (replies' : List (Commit crates)) :
    Linear.Standing (ledger identity) shown
      (order ++ [⟨.inl request.id, .submit (bodies request.id), .decided outcome⟩])
      ⟨heads, lists⟩ (Waiting bodies (.up ⟨after, front ++ back, replies'⟩)) := by
  have waits : Waiting bodies world.machine (.inl request.id) (.submit (bodies request.id)) := by
    rw [up]
    exact ⟨request, by simp, rfl, rfl⟩
  refine (linearizes.standing.effect waits applies).drop ?_
  intro name op waiting
  rw [up]
  exact waiting_left queued waiting

theorem Follows.dropped {witness after : Witness crates} {front back : List (Pending crates)}
    {request : Pending crates} {replies : List (Commit crates)}
    (follows : Follows bodies lists order ⟨witness, front ++ request :: back, replies⟩)
    (logs : after.logs = witness.logs) :
    Follows bodies lists order ⟨after, front ++ back, replies⟩ := by
  refine follows.fewer logs ?_ (List.Subset.refl _)
  intro other member
  exact ⟨other.timestamp, (removed_sublist front back request).subset member⟩

theorem Linearizes.turnedAway (linearizes : Linearizes identity bodies lists world shown order)
    {witness : Witness crates} {front back : List (Pending crates)}
    {replies : List (Commit crates)} (request : Pending crates)
    (up : world.machine = .up ⟨witness, front ++ request :: back, replies⟩)
    (queued : Queued world.history ⟨witness, front ++ request :: back, replies⟩)
    {error : WitnessError}
    (applies : Applies identity ⟨latestCommitted world.history, lists⟩
      (.submit (bodies request.id)) (.decided (.error error))
      ⟨latestCommitted world.history, lists⟩)
    {after : Witness crates} (logs : after.logs = witness.logs) :
    Linearizes identity bodies lists
      ⟨.up ⟨after, front ++ back, replies⟩, world.nextId,
        .rejected request.id request.vetted error :: world.history⟩
      (shown ++ [.answered (.inl request.id) (.decided (.error error))])
      (order ++ [⟨.inl request.id, .submit (bodies request.id), .decided (.error error)⟩]) where
  standing := (linearizes.takes request up queued applies after replies).answer
    (List.mem_append_right _ (List.mem_singleton_self _))
  follows := by
    intro process running
    cases running
    exact ((linearizes.follows _ up).dropped logs).later _
  numbered := linearizes.numbered_append (by simp)
  counted := linearizes.counted_append (by simp)

theorem Linearizes.committed (linearizes : Linearizes identity bodies lists world shown order)
    {witness : Witness crates} {front back : List (Pending crates)}
    {replies : List (Commit crates)} (commit : Commit crates)
    {timestamp : Option {timestamp : UInt64 // timestamp ≠ 0}}
    (up : world.machine =
      .up ⟨witness, front ++ ⟨commit.id, commit.vetted, timestamp⟩ :: back, replies⟩)
    (queued : Queued world.history
      ⟨witness, front ++ ⟨commit.id, commit.vetted, timestamp⟩ :: back, replies⟩)
    (timed : commit.timestamp ≠ 0)
    (explains : Explains identity world.history (.committed commit)) {after : Witness crates}
    (logs : after.logs = witness.logs) :
    Linearizes identity bodies lists
      ⟨.up ⟨after, front ++ back, commit :: replies⟩, world.nextId,
        .committed commit :: world.history⟩ shown
      (order ++ [⟨.inl commit.id, .submit (bodies commit.id), .decided (.ok commit.body)⟩]) where
  standing := by
    have admits := (linearizes.follows _ up).admitted ⟨commit.id, commit.vetted, timestamp⟩
      (by simp)
    have applies : Applies identity ⟨latestCommitted world.history, lists⟩
        (.submit (bodies commit.id)) (.decided (.ok commit.body))
        ⟨latestCommitted (.committed commit :: world.history), lists⟩ := by
      rw [latestCommitted_commit, settle_origin explains.2.2]
      exact .approves admits timed explains.2.2
    exact linearizes.takes ⟨commit.id, commit.vetted, timestamp⟩ up queued applies after
      (commit :: replies)
  follows := by
    intro process running
    cases running
    have before := ((linearizes.follows _ up).dropped logs).later
      [⟨.inl commit.id, .submit (bodies commit.id), .decided (.ok commit.body)⟩]
    refine ⟨before.current, before.admitted, ?_⟩
    rw [List.forall_mem_cons]
    exact ⟨⟨_, List.mem_append_right _ (List.mem_singleton_self _)⟩, before.replies⟩
  numbered := linearizes.numbered
  counted := linearizes.counted

theorem Linearizes.ended (linearizes : Linearizes identity bodies lists world shown order)
    (file : List UInt8) :
    Linearizes identity bodies lists ⟨.down file, world.nextId, world.history⟩
      (shown ++ [.died]) order where
  standing := linearizes.standing.die
  follows := by
    intro process running
    cases running
  numbered := linearizes.numbered_append (by simp)
  counted := linearizes.counted_append (by simp)

theorem Linearizes.accepted (sound : Sound identity world)
    (linearizes : Linearizes identity bodies lists world shown order) {process : Process crates}
    (up : world.machine = .up process) {body : Text} {vetted : Vetted crates}
    (passed : vet crates process.witness.logs body = .ok vetted) :
    Linearizes identity (Function.update bodies world.nextId body) lists
      ⟨.up { process with pending := process.pending ++ [⟨world.nextId, vetted, none⟩] },
        world.nextId + 1, .vetted world.nextId vetted :: world.history⟩
      (shown ++ [.invoked (.inl world.nextId) (.submit body)]) order where
  standing := by
    have fresh : ∀ op, .invoked (.inl world.nextId) op ∉ shown := by
      intro op invoked
      exact absurd (linearizes.numbered world.nextId op invoked) (Nat.lt_irrefl _)
    refine (linearizes.standing.invoke fresh (.submit body)).drop ?_
    rintro name op ⟨request, member, rfl, rfl⟩
    rcases List.mem_append.mp member with before | new
    · have older : request.id ≠ world.nextId :=
        (sound.fresh _ _ ((sound.queued process up).vetted request before)).ne
      rw [Function.update_of_ne older, up]
      exact Or.inl ⟨request, before, rfl, rfl⟩
    · cases List.mem_singleton.mp new
      rw [Function.update_self]
      exact Or.inr ⟨rfl, rfl⟩
  follows := by
    intro other running
    cases running
    have follows := linearizes.follows process up
    refine ⟨follows.current, ?_, follows.replies⟩
    intro request member
    rcases List.mem_append.mp member with before | new
    · have older : request.id ≠ world.nextId :=
        (sound.fresh _ _ ((sound.queued process up).vetted request before)).ne
      rw [Function.update_of_ne older]
      exact follows.admitted request before
    · cases List.mem_singleton.mp new
      rw [Function.update_self]
      exact ⟨process.witness.logs, List.mem_of_head? follows.current, passed⟩
  numbered := by
    intro id op member
    rcases List.mem_append.mp member with before | new
    · exact Nat.lt_succ_of_lt (linearizes.numbered id op before)
    · cases List.mem_singleton.mp new
      exact Nat.lt_succ_self _
  counted := linearizes.counted_append (by simp)

theorem event_none {history : History crates} {event : Option (Event crates)}
    (added : history = event.toList ++ history) : event = none := by
  cases event with
  | none => rfl
  | some event => simp at added

theorem event_some {history : History crates} {event : Option (Event crates)}
    {first : Event crates} (added : first :: history = event.toList ++ history) :
    event = some first := by
  cases event with
  | none => simp at added
  | some event => simpa [eq_comm] using added

theorem Linearizes.step (sound : Sound identity world) (after : Sound identity next)
    (linearizes : Linearizes identity bodies lists world shown order)
    (step : Step identity world next) {event : Option (Event crates)}
    (added : next.history = event.toList ++ world.history) {seen : Shown crates}
    (shows : Shows shown.length world.machine next.machine event seen) :
    ∃ bodies' lists' order', Linearizes identity bodies' lists' next (shown ++ seen) order' := by
  cases step with
  | boot named started =>
      cases event_none added
      cases shows with
      | ended down => cases down
      | installed up =>
          cases up
          refine ⟨bodies, _, _, linearizes.atOnce [] (.installs _) ?_ ?_⟩
          · rintro name op ⟨request, member, -⟩
            cases member
          · intro process up
            cases up
            exact ⟨rfl, by simp, by simp⟩
  | swap managed =>
      cases event_none added
      cases shows with
      | ended down => cases down
      | installed up =>
          cases up
          refine ⟨bodies, _, _, linearizes.atOnce [] (.installs _) (fun _ _ waits => waits) ?_⟩
          intro process up
          cases up
          have follows := linearizes.follows _ rfl
          exact ⟨rfl, fun request member => (follows.admitted request member).later _,
            follows.replies⟩
  | accept passed =>
      cases event_some added
      cases shows with
      | submitted id up passed' =>
          cases up
          exact ⟨_, lists, order, linearizes.accepted sound rfl passed'⟩
  | refuse failed =>
      cases event_some added
      cases shows with
      | refused up failed' =>
          cases up
          have follows := linearizes.follows _ rfl
          exact ⟨bodies, lists, _, linearizes.atOnce [.refused _]
            (.turnsAway follows.current failed') (fun _ _ waits => waits) linearizes.follows⟩
  | readClock read =>
      rename_i witness front back replies nextId history id vetted now timestamp
      cases event_some added
      cases shows with
      | clockRead =>
          rw [List.append_nil]
          have older : ∀ request ∈ front ++ ⟨id, vetted, some timestamp⟩ :: back,
              ∃ earlier, ⟨request.id, request.vetted, earlier⟩ ∈
                front ++ ⟨id, vetted, none⟩ :: back := by
            simp only [List.mem_append, List.mem_cons]
            rintro request (before | rfl | behind)
            · exact ⟨request.timestamp, Or.inl before⟩
            · exact ⟨none, Or.inr (Or.inl rfl)⟩
            · exact ⟨request.timestamp, Or.inr (Or.inr behind)⟩
          refine ⟨bodies, lists, order, ?_, ?_, linearizes.numbered, linearizes.counted⟩
          · refine linearizes.standing.drop ?_
            rintro name op ⟨request, member, rfl, rfl⟩
            rcases older request member with ⟨earlier, before⟩
            exact ⟨_, before, rfl, rfl⟩
          · intro process up
            cases up
            exact (linearizes.follows _ rfl).fewer rfl older (List.Subset.refl _)
  | clockFails failed =>
      rename_i witness front back replies nextId history id vetted now error
      cases event_some added
      cases shows with
      | rejected =>
          rcases stamp_cases now with early | ⟨timestamp, read⟩
          · rw [early] at failed
            cases failed
            have admits := (linearizes.follows _ rfl).admitted ⟨id, vetted, none⟩ (by simp)
            exact ⟨bodies, lists, _, linearizes.turnedAway ⟨id, vetted, none⟩ rfl
              (sound.queued _ rfl) (.clockless admits) rfl⟩
          · rw [read] at failed
            cases failed
  | commit approved submitted =>
      rename_i witness front back replies nextId history id vetted timestamp state body next
      cases event_some added
      cases shows with
      | committed =>
          have logs := submit_logs witness vetted timestamp.val none
          rw [submitted] at logs
          rw [deaths, List.append_nil]
          exact ⟨bodies, lists, _, linearizes.committed ⟨id, vetted, timestamp.val, state, body⟩
            rfl (sound.queued _ rfl) timestamp.property after.explained.1 logs⟩
  | reject failed =>
      rename_i witness front back replies nextId history id vetted timestamp error next
      cases event_some added
      cases shows with
      | rejected =>
          have admits := (linearizes.follows _ rfl).admitted ⟨id, vetted, some timestamp⟩
            (by simp)
          have logs := submit_logs witness vetted timestamp.val none
          rw [failed] at logs
          have applies : Applies identity ⟨latestCommitted history, lists⟩ (.submit (bodies id))
              (.decided (.error error)) ⟨latestCommitted history, lists⟩ := by
            rcases after.explained.1.2 with rfl | ⟨other, read, refused⟩
            · exact .clockless admits
            · rcases after.explained.2.of_mem read with ⟨_, _, _, ⟨timed, _⟩, _⟩
              exact .refuses admits timed refused
          exact ⟨bodies, lists, _, linearizes.turnedAway ⟨id, vetted, some timestamp⟩ rfl
            (sound.queued _ rfl) applies logs⟩
  | respond =>
      rename_i witness pending front back nextId history commit
      cases event_some added
      cases shows with
      | responded =>
          have follows := linearizes.follows _ rfl
          rcases follows.replies commit (by simp) with ⟨op, taken⟩
          refine ⟨bodies, lists, order, linearizes.standing.answer taken, ?_,
            linearizes.numbered_append (by simp), linearizes.counted_append (by simp)⟩
          intro process up
          cases up
          exact follows.fewer rfl (fun request member => ⟨request.timestamp, member⟩)
            (removed_sublist front back commit).subset
  | monitor found =>
      rename_i process nextId history hash state
      cases event_some added
      cases shows with
      | read up found' =>
          cases up
          rcases found' with ⟨⟨origin, held⟩, rfl⟩
          have latest : latestCommitted history origin = some state := by
            rw [← sound.latest rfl]
            exact held
          exact ⟨bodies, lists, _, linearizes.atOnce [.served state] (.reads latest)
            (fun _ _ waits => waits) linearizes.follows⟩
  | stop =>
      cases event_none added
      cases shows with
      | installed up => cases up
      | ended => exact ⟨bodies, lists, order, linearizes.ended _⟩
  | crash count approved =>
      rename_i witness front back replies nextId history id vetted timestamp state body
      by_cases whole : Whole crates state count
      · simp only [if_pos whole] at added after ⊢
        cases event_some added
        cases shows with
        | committed =>
            have kept : witness.logs = witness.logs := rfl
            exact ⟨bodies, lists, _, (linearizes.committed
              ⟨id, vetted, timestamp.val, state, body⟩ rfl (sound.queued _ rfl)
              timestamp.property after.explained.1 kept).ended _⟩
      · simp only [if_neg whole] at added after ⊢
        cases event_none added
        cases shows with
        | installed up => cases up
        | ended => exact ⟨bodies, lists, order, linearizes.ended _⟩

theorem Linearizes.missed (sound : Sound identity world)
    (linearizes : Linearizes identity bodies lists world shown order) {process : Process crates}
    (up : world.machine = .up process) {hash : Text}
    (absent : ∀ state, ¬ process.witness.store.FindsByOriginHash crates.toStoreCrates hash state) :
    Linearizes identity bodies lists world
      (shown ++ Ledger.atOnce shown.length (.read hash) .missing)
      (order ++ [⟨.inr shown.length, .read hash, .missing⟩]) := by
  refine linearizes.atOnce [] (.misses ?_) (fun _ _ waits => waits) linearizes.follows
  intro origin state held same
  have latest := sound.latest up origin
  exact absent state ⟨⟨origin, latest.trans held⟩, same⟩

end Steps

theorem linearizes_of_observed (faithful : crates.toStoreCrates.Faithful) {world : World crates}
    {shown : Shown crates} (observed : Observed identity world shown) :
    ∃ bodies lists order, Linearizes identity bodies lists world shown order := by
  induction observed with
  | start => exact ⟨fun _ => [], [], [], linearizes_start⟩
  | step before step added shows ih =>
      rcases ih with ⟨bodies, lists, order, linearizes⟩
      have sound := sound_of_reachable faithful before.reachable
      exact linearizes.step sound (sound_step faithful sound step) step added shows
  | missed hash before up absent ih =>
      rcases ih with ⟨bodies, lists, order, linearizes⟩
      have sound := sound_of_reachable faithful before.reachable
      exact ⟨bodies, lists, _, linearizes.missed sound up absent⟩

/-- What a witness has of every origin: in memory, or with the next start that succeeds. -/
def Has (machine : Machine crates) (heads : Heads) : Prop :=
  match machine with
  | .up process => ∀ origin, process.witness.latest origin = heads origin
  | .down file => ∀ path store after,
      Store.open crates.toStoreCrates path false file = (.ok store, after) →
        ∀ origin, store.latest origin = heads origin

theorem has_latestCommitted (faithful : crates.toStoreCrates.Faithful) {world : World crates}
    (sound : Sound identity world) : Has world.machine (latestCommitted world.history) := by
  cases running : world.machine with
  | up process => exact fun origin => sound.latest running origin
  | down file =>
      intro path store after opened origin
      have durable := sound.durable
      rw [running] at durable
      have inner := Disk.opens faithful durable sound.named opened
      rw [Store.latest, inner]
      rfl

/-- To its clients a witness is the ledger: whatever the interleaving of the requests and wherever
the process ends, what they saw looks as if submissions and reads had taken effect one at a time,
between their start and their end, on states that survive every end of the process. -/
theorem witness_is_linearizable (faithful : crates.toStoreCrates.Faithful) {world : World crates}
    {shown : Shown crates} (observed : Observed identity world shown) :
    ∃ order book, Linear.Linearization (ledger identity) shown order book ∧
      Has world.machine book.heads ∧
      ∀ process, world.machine = .up process → book.lists.head? = some process.witness.logs := by
  rcases linearizes_of_observed faithful observed with ⟨bodies, lists, order, linearizes⟩
  exact ⟨order, ⟨latestCommitted world.history, lists⟩, linearizes.standing.toLinearization,
    has_latestCommitted faithful (sound_of_reachable faithful observed.reachable),
    fun process up => (linearizes.follows process up).current⟩

theorem Observed.answered {world : World crates} {shown : Shown crates}
    (observed : Observed identity world shown) {commit : Commit crates}
    (responded : .responded commit ∈ world.history) :
    .answered (.inl commit.id) (.decided (.ok commit.body)) ∈ shown := by
  induction observed with
  | start => cases responded
  | step _ _ added shows ih =>
      rw [added, List.mem_append, Option.mem_toList] at responded
      rcases responded with rfl | earlier
      · cases shows with
        | responded => exact List.mem_append_right _ (List.mem_singleton_self _)
      · exact List.mem_append_left _ (ih earlier)
  | missed _ _ _ _ ih => exact List.mem_append_left _ (ih responded)

/-- A submission is answered with its cosignatures, and then a read finds nothing. -/
theorem answered_submission_is_linearizable : ∃ (world : World Reference.witnessCrates) (shown : _)
    (id number : Nat) (body hash : Text), Observed Reference.identity world shown ∧
      .answered (.inl id) (.decided (.ok body)) ∈ shown ∧
      .invoked (.inr number) (.read hash) ∈ shown ∧ .answered (.inr number) .missing ∈ shown ∧
      ∃ order book, Linear.Linearization (ledger Reference.identity) shown order book ∧
        Has world.machine book.heads ∧
        ∀ process, world.machine = .up process →
          book.lists.head? = some process.witness.logs := by
  rcases Reference.one_record with ⟨witness, commit, idle, -, -⟩
  rcases observed_of_reachable idle.reachable with ⟨shown, observed⟩
  have responded : Event.responded commit ∈ Reference.exchange commit := List.mem_cons_self
  have absent : ∀ state, ¬ witness.store.FindsByOriginHash Reference.storeCrates [] state := by
    rintro state ⟨-, empty⟩
    have shape := isOriginHash_hex (Reference.storeCrates.sha256 (Utf8.encode state.origin))
    rw [empty] at shape
    cases shape
  have missed := observed.missed [] rfl absent
  exact ⟨_, _, commit.id, shown.length, commit.body, [], missed,
    List.mem_append_left _ (observed.answered responded), by simp [atOnce], by simp [atOnce],
    witness_is_linearizable Reference.witnessCrates_faithful missed⟩

end Ledger

end MosskeysWitness
