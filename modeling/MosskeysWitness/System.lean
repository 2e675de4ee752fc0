import Mathlib.Logic.Relation
import MosskeysWitness.Server
import MosskeysWitness.Recovery

/-! The witness as a running system: requests interleaved at the points where the code lets
them, hot-swaps, monitoring reads, stops, crashes in the middle of an append, and restarts on
the same state file. A history of events is kept beside the state. -/

namespace MosskeysWitness

variable {crates : WitnessCrates}

/-- A request in flight, once its body has passed the checks before the clock. -/
structure Pending (crates : WitnessCrates) where
  id : Nat
  vetted : Vetted crates
  timestamp : Option {timestamp : UInt64 // timestamp ≠ 0}

/-- A record whose JSON object is completely in the file, with the request that put it there. -/
structure Commit (crates : WitnessCrates) where
  id : Nat
  vetted : Vetted crates
  timestamp : UInt64
  state : LogState
  body : Text

structure Process (crates : WitnessCrates) where
  witness : Witness crates
  pending : List (Pending crates)
  replies : List (Commit crates)

inductive Machine (crates : WitnessCrates) where
  | down (file : List UInt8)
  | up (process : Process crates)

inductive Event (crates : WitnessCrates) where
  | vetted (id : Nat) (vetted : Vetted crates)
  | refused (error : WitnessError)
  | clockRead (id : Nat) (timestamp : UInt64)
  | committed (commit : Commit crates)
  | rejected (id : Nat) (vetted : Vetted crates) (error : WitnessError)
  | responded (commit : Commit crates)
  | served (state : LogState)

/-- The newest event comes first. -/
abbrev History (crates : WitnessCrates) := List (Event crates)

structure World (crates : WitnessCrates) where
  machine : Machine crates
  nextId : Nat
  history : History crates

/-- No state file yet, and nothing has happened. -/
def World.initial : World crates := ⟨.down [], 0, []⟩

/-- Whether a record of which a crash left `count` bytes is completely there. -/
def Whole (crates : WitnessCrates) (state : LogState) (count : Nat) : Prop :=
  (Utf8.encode (recordText crates.toStoreCrates state)).length ≤ count

instance (state : LogState) (count : Nat) : Decidable (Whole crates state count) :=
  Nat.decLe _ _

/-- One step of the witness `identity`. No write or fsync reports an error. -/
inductive Step (identity : Identity) : World crates → World crates → Prop
  | boot {config : Config crates} {file after witness nextId history} :
      config.name = identity.name →
      Witness.fromConfig crates config (.ok identity.ed25519 : Except Empty LoadedKey)
        (.ok identity.mldsa44) false file = (.ok witness, after) →
      Step identity ⟨.down file, nextId, history⟩ ⟨.up ⟨witness, [], []⟩, nextId, history⟩
  | swap {process nextId history} (managed : List (LogConfig crates)) :
      Step identity ⟨.up process, nextId, history⟩
        ⟨.up { process with witness := (process.witness.applyManagedEntries managed).2 },
          nextId, history⟩
  | accept {process nextId history body vetted} :
      vet crates process.witness.logs body = .ok vetted →
      Step identity ⟨.up process, nextId, history⟩
        ⟨.up { process with pending := process.pending ++ [⟨nextId, vetted, none⟩] },
          nextId + 1, .vetted nextId vetted :: history⟩
  | refuse {process nextId history body error} :
      vet crates process.witness.logs body = .error error →
      Step identity ⟨.up process, nextId, history⟩
        ⟨.up process, nextId, .refused error :: history⟩
  | readClock {witness front back replies nextId history id vetted now timestamp} :
      stamp now = .ok timestamp →
      Step identity
        ⟨.up ⟨witness, front ++ ⟨id, vetted, none⟩ :: back, replies⟩, nextId, history⟩
        ⟨.up ⟨witness, front ++ ⟨id, vetted, some timestamp⟩ :: back, replies⟩, nextId,
          .clockRead id timestamp.val :: history⟩
  | clockFails {witness front back replies nextId history id vetted now error} :
      stamp now = .error error →
      Step identity
        ⟨.up ⟨witness, front ++ ⟨id, vetted, none⟩ :: back, replies⟩, nextId, history⟩
        ⟨.up ⟨witness, front ++ back, replies⟩, nextId, .rejected id vetted error :: history⟩
  | commit {witness front back replies nextId history id vetted timestamp state body next} :
      settle witness.toIdentity vetted timestamp.val (witness.latest vetted.origin) =
        .ok (state, body) →
      witness.submit vetted timestamp.val none = (.ok body, next) →
      Step identity
        ⟨.up ⟨witness, front ++ ⟨id, vetted, some timestamp⟩ :: back, replies⟩, nextId, history⟩
        ⟨.up ⟨next, front ++ back, ⟨id, vetted, timestamp.val, state, body⟩ :: replies⟩, nextId,
          .committed ⟨id, vetted, timestamp.val, state, body⟩ :: history⟩
  | reject {witness front back replies nextId history id vetted timestamp error next} :
      witness.submit vetted timestamp.val none = (.error error, next) →
      Step identity
        ⟨.up ⟨witness, front ++ ⟨id, vetted, some timestamp⟩ :: back, replies⟩, nextId, history⟩
        ⟨.up ⟨next, front ++ back, replies⟩, nextId, .rejected id vetted error :: history⟩
  | respond {witness pending front back nextId history commit} :
      Step identity
        ⟨.up ⟨witness, pending, front ++ commit :: back⟩, nextId, history⟩
        ⟨.up ⟨witness, pending, front ++ back⟩, nextId, .responded commit :: history⟩
  | monitor {process nextId history} {hash : Text} {state : LogState} :
      process.witness.store.FindsByOriginHash crates.toStoreCrates hash state →
      Step identity ⟨.up process, nextId, history⟩
        ⟨.up process, nextId, .served state :: history⟩
  | stop {process nextId history} :
      Step identity ⟨.up process, nextId, history⟩
        ⟨.down process.witness.store.inner.file, nextId, history⟩
  | crash {witness front back replies nextId history id vetted timestamp state body} (count : Nat) :
      settle witness.toIdentity vetted timestamp.val (witness.latest vetted.origin) =
        .ok (state, body) →
      -- The process dies inside the append: `count` bytes of the line stay in the file.
      Step identity
        ⟨.up ⟨witness, front ++ ⟨id, vetted, some timestamp⟩ :: back, replies⟩, nextId, history⟩
        ⟨.down (witness.submit vetted timestamp.val (some (.write count))).2.store.inner.file,
          nextId,
          if Whole crates state count then
            .committed ⟨id, vetted, timestamp.val, state, body⟩ :: history
          else history⟩

def Reachable (identity : Identity) (world : World crates) : Prop :=
  Relation.ReflTransGen (Step identity) World.initial world

section History

def commits : History crates → List (Commit crates)
  | [] => []
  | .committed commit :: earlier => commit :: commits earlier
  | _ :: earlier => commits earlier

def journal (history : History crates) : List LogState :=
  (commits history).reverse.map (·.state)

/-- The last record committed for an origin. -/
def latestCommitted (history : History crates) (origin : Text) : Option LogState :=
  (latestStates (journal history)).lookup origin

theorem journal_committed (commit : Commit crates) (earlier : History crates) :
    journal (.committed commit :: earlier) = journal earlier ++ [commit.state] := by
  simp [journal, commits]

theorem mem_commits {history : History crates} {commit : Commit crates} :
    commit ∈ commits history ↔ Event.committed commit ∈ history := by
  induction history with
  | nil => simp [commits]
  | cons event earlier ih => cases event <;> simp [commits, ih]

theorem mem_journal {history : History crates} {state : LogState} :
    state ∈ journal history ↔ ∃ commit ∈ commits history, commit.state = state := by
  simp [journal]

/-- What the events before it say about an event: where a request comes from, which clock read
its timestamp is, which record its decision was made on, and what an answer is an answer to. -/
def Explains (identity : Identity) (earlier : History crates) : Event crates → Prop
  | .vetted id _ => ∀ vetted, Event.vetted id vetted ∉ earlier
  | .refused error => ∃ logs body, vet crates logs body = .error error
  | .clockRead id timestamp =>
      timestamp ≠ 0 ∧ (∃ vetted, Event.vetted id vetted ∈ earlier) ∧
        ∀ other, Event.clockRead id other ∉ earlier
  | .committed commit =>
      Event.vetted commit.id commit.vetted ∈ earlier ∧
        Event.clockRead commit.id commit.timestamp ∈ earlier ∧
        settle identity commit.vetted commit.timestamp
          (latestCommitted earlier commit.vetted.origin) = .ok (commit.state, commit.body)
  | .rejected id vetted error =>
      Event.vetted id vetted ∈ earlier ∧
        (error = .clock ∨ ∃ timestamp, Event.clockRead id timestamp ∈ earlier ∧
          settle identity vetted timestamp (latestCommitted earlier vetted.origin) = .error error)
  | .responded commit => Event.committed commit ∈ earlier
  | .served state => latestCommitted earlier state.origin = some state

def Explained (identity : Identity) : History crates → Prop
  | [] => True
  | event :: earlier => Explains identity earlier event ∧ Explained identity earlier

variable {identity : Identity}

theorem Explained.at {later earlier : History crates} {event : Event crates}
    (explained : Explained identity (later ++ event :: earlier)) :
    Explains identity earlier event ∧ Explained identity earlier := by
  induction later with
  | nil => exact explained
  | cons newest later ih => exact ih explained.2

theorem Explained.of_mem {history : History crates} {event : Event crates}
    (explained : Explained identity history) (member : event ∈ history) :
    ∃ later earlier, history = later ++ event :: earlier ∧ Explains identity earlier event ∧
      Explained identity earlier := by
  obtain ⟨later, earlier, rfl⟩ := List.append_of_mem member
  exact ⟨later, earlier, rfl, explained.at⟩

theorem latestCommitted_origin {history : History crates} {origin : Text} {state : LogState}
    (found : latestCommitted history origin = some state) : state.origin = origin :=
  LastWins.key_of_lookup found

end History

section Invariant

/-- What the disk holds while the process is down. -/
inductive Disk (crates : StoreCrates) : List UInt8 → List LogState → Prop
  | clean (journal : List LogState) : Disk crates (journalFile crates journal) journal
  | torn (journal : List LogState) (state : LogState) (cut : Nat) : state.origin ≠ [] →
      Disk crates (tornFile crates journal state cut) (recoveredJournal crates journal state cut)

/-- The file is the journal, and memory, while there is one, is what the journal folds to. -/
def Durable (identity : Identity) (machine : Machine crates) (journal : List LogState) : Prop :=
  match machine with
  | .down file => Disk crates.toStoreCrates file journal
  | .up process =>
      process.witness.toIdentity = identity ∧
        process.witness.store.inner =
          ⟨journalFile crates.toStoreCrates journal, latestStates journal⟩

/-- The requests in flight are in the history as far as they have come. -/
structure Queued (history : History crates) (process : Process crates) : Prop where
  distinct : (process.pending.map (·.id)).Nodup
  vetted : ∀ request ∈ process.pending, Event.vetted request.id request.vetted ∈ history
  unread : ∀ request ∈ process.pending, request.timestamp = none →
    ∀ timestamp, Event.clockRead request.id timestamp ∉ history
  read : ∀ request ∈ process.pending, ∀ timestamp, request.timestamp = some timestamp →
    Event.clockRead request.id timestamp.val ∈ history
  replies : ∀ commit ∈ process.replies, Event.committed commit ∈ history

structure Sound (identity : Identity) (world : World crates) : Prop where
  named : ∀ state ∈ journal world.history, state.origin ≠ []
  durable : Durable identity world.machine (journal world.history)
  explained : Explained identity world.history
  fresh : ∀ id vetted, Event.vetted id vetted ∈ world.history → id < world.nextId
  queued : ∀ process, world.machine = .up process → Queued world.history process

variable {identity : Identity}

theorem Queued.fewer {history : History crates} {witness next : Witness crates}
    {pending rest : List (Pending crates)} {replies fewer : List (Commit crates)}
    (queued : Queued history ⟨witness, pending, replies⟩) (left : rest.Sublist pending)
    (kept : fewer ⊆ replies) : Queued history ⟨next, rest, fewer⟩ where
  distinct := queued.distinct.sublist (left.map _)
  vetted := fun request member => queued.vetted request (left.subset member)
  unread := fun request member => queued.unread request (left.subset member)
  read := fun request member => queued.read request (left.subset member)
  replies := fun commit member => queued.replies commit (kept member)

theorem Queued.later {history : History crates} {process : Process crates} {event : Event crates}
    (queued : Queued history process) (silent : ∀ id timestamp, event ≠ .clockRead id timestamp) :
    Queued (event :: history) process where
  distinct := queued.distinct
  vetted := fun request member => List.mem_cons_of_mem _ (queued.vetted request member)
  unread := by
    intro request member none timestamp read
    rcases List.mem_cons.mp read with same | earlier
    · exact silent _ _ same.symm
    · exact queued.unread request member none timestamp earlier
  read := fun request member timestamp some =>
    List.mem_cons_of_mem _ (queued.read request member timestamp some)
  replies := fun commit member => List.mem_cons_of_mem _ (queued.replies commit member)

theorem Sound.no_clockRead {world : World crates} (sound : Sound identity world) {id : Nat}
    (unused : world.nextId ≤ id) (timestamp : UInt64) :
    Event.clockRead id timestamp ∉ world.history := by
  intro member
  obtain ⟨later, earlier, whole, explains, -⟩ := sound.explained.of_mem member
  rcases explains with ⟨-, ⟨vetted, accepted⟩, -⟩
  have inside : Event.vetted id vetted ∈ world.history := by
    rw [whole]
    exact List.mem_append_right _ (List.mem_cons_of_mem _ accepted)
  have below := sound.fresh id vetted inside
  omega

theorem fromConfig_ok {κ : Type} {config : Config crates} {ed25519 mldsa44 : LoadedKey}
    {file after : List UInt8} {witness : Witness crates}
    (started : Witness.fromConfig crates config (.ok ed25519 : Except κ LoadedKey) (.ok mldsa44)
      false file = (.ok witness, after)) :
    Store.open crates.toStoreCrates config.stateFile false file = (.ok witness.store, after) ∧
      witness.toIdentity = ⟨config.name, ed25519, mldsa44⟩ := by
  have starts := Witness.fromConfig_starts started
  refine ⟨starts.store, ?_⟩
  rw [← starts.name, Except.ok.inj starts.ed25519, Except.ok.inj starts.mldsa44]

section Submit

theorem submit_logs (witness : Witness crates) (vetted : Vetted crates)
    (timestamp : UInt64) (fault : Option AppendFault) :
    (witness.submit vetted timestamp fault).2.logs = witness.logs := by
  unfold Witness.submit
  split <;> rfl

theorem submit_manualLogs (witness : Witness crates) (vetted : Vetted crates)
    (timestamp : UInt64) (fault : Option AppendFault) :
    (witness.submit vetted timestamp fault).2.manualLogs = witness.manualLogs := by
  unfold Witness.submit
  split <;> rfl

variable {witness : Witness crates} {vetted : Vetted crates} {timestamp : UInt64}

theorem submit_error {error : WitnessError} (fault : Option AppendFault)
    (refused : settle witness.toIdentity vetted timestamp (witness.latest vetted.origin) =
      .error error) : witness.submit vetted timestamp fault = (.error error, witness) := by
  have rejected : settle witness.toIdentity vetted timestamp
      (witness.store.inner.states.lookup vetted.origin) = .error error := refused
  simp [Witness.submit, Store.update, rejected]

variable (faithful : crates.toStoreCrates.Faithful) {state : LogState} {body : Text}
include faithful

theorem submit_file (fault : Option AppendFault)
    (approved : settle witness.toIdentity vetted timestamp (witness.latest vetted.origin) =
      .ok (state, body)) :
    (witness.submit vetted timestamp fault).2.store.inner.file =
      witness.store.inner.file ++ written crates.toStoreCrates state fault := by
  have passed : settle witness.toIdentity vetted timestamp
      (witness.store.inner.states.lookup vetted.origin) = .ok (state, body) := approved
  have file := append_file faithful witness.store.inner state witness.store.path fault
  cases outcome :
    witness.store.inner.append crates.toStoreCrates state witness.store.path fault with
  | mk status inner =>
      rw [outcome] at file
      cases file
      cases status <;> simp [Witness.submit, Store.update, passed, outcome]

theorem submit_ok
    (approved : settle witness.toIdentity vetted timestamp (witness.latest vetted.origin) =
      .ok (state, body)) :
    witness.submit vetted timestamp none =
      (.ok body, { witness with
        store := { witness.store with
          inner :=
            { file := witness.store.inner.file ++ recordLine crates.toStoreCrates state
              states := witness.store.inner.states.insert vetted.origin state } } }) := by
  have passed : settle witness.toIdentity vetted timestamp
      (witness.store.inner.states.lookup vetted.origin) = .ok (state, body) := approved
  have text := toString_fromState faithful state
  simp [Witness.submit, Store.update, passed, Inner.append, text, recordLine]

theorem settle_of_submit_error {error : WitnessError} {next : Witness crates}
    (failed : witness.submit vetted timestamp none = (.error error, next)) :
    settle witness.toIdentity vetted timestamp (witness.latest vetted.origin) = .error error ∧
      next = witness := by
  cases outcome : settle witness.toIdentity vetted timestamp (witness.latest vetted.origin) with
  | error other =>
      rw [submit_error none outcome] at failed
      cases failed
      exact ⟨rfl, rfl⟩
  | ok approved =>
      have state := approved.1
      have body := approved.2
      rw [submit_ok faithful outcome] at failed
      cases failed

theorem addCheckpoint_ok {request : Text} (timed : timestamp ≠ 0)
    (passed : vet crates witness.logs request = .ok vetted)
    (approved : settle witness.toIdentity vetted timestamp (witness.latest vetted.origin) =
      .ok (state, body)) :
    (witness.addCheckpoint request (some timestamp) none).1 = .ok body := by
  rw [Witness.addCheckpoint, passed]
  dsimp only
  rw [stamp_nonzero timed]
  dsimp only
  rw [submit_ok faithful approved]

end Submit

section Reboot

variable {crates : StoreCrates}

theorem named_before {journal : List LogState} {state : LogState} {cut : Nat}
    (named : ∀ other ∈ recoveredJournal crates journal state cut, other.origin ≠ []) :
    ∀ other ∈ journal, other.origin ≠ [] := by
  intro other member
  apply named
  rw [recoveredJournal]
  split
  · exact List.mem_append_left _ member
  · exact member

theorem Disk.opens_text (faithful : crates.Faithful) {path : String} {file : List UInt8}
    {journal : List LogState} (disk : Disk crates file journal)
    (named : ∀ state ∈ journal, state.origin ≠ [])
    (text : ∃ text, Utf8.decode file = some text) :
    Store.open crates path false file =
      (.ok (opened path (journalFile crates journal) journal), journalFile crates journal) := by
  cases disk with
  | clean journal => exact open_journalFile faithful path named
  | torn journal state cut fresh =>
      rcases journalFile_append_text.mp text with ⟨part, boundary⟩
      exact open_torn faithful (named_before named) fresh boundary

theorem Disk.refuses (faithful : crates.Faithful) {path : String} {file : List UInt8}
    {journal : List LogState} (disk : Disk crates file journal)
    (named : ∀ state ∈ journal, state.origin ≠ [])
    (broken : ¬ ∃ text, Utf8.decode file = some text) :
    Store.open crates path false file = (.error (.io path .invalidData), file) := by
  cases disk with
  | clean journal =>
      rcases journalFile_text crates journal with ⟨text, written⟩
      exact absurd ⟨text, by rw [written, Utf8.decode_encode]⟩ broken
  | torn journal state cut fresh =>
      apply open_torn_inside faithful (named_before named)
      intro boundary
      exact broken (journalFile_append_text.mpr boundary)

theorem Disk.opens (faithful : crates.Faithful) {path : String} {file after : List UInt8}
    {journal : List LogState}
    {store : Store} (disk : Disk crates file journal)
    (named : ∀ state ∈ journal, state.origin ≠ [])
    (succeeded : Store.open crates path false file = (.ok store, after)) :
    store.inner = ⟨journalFile crates journal, latestStates journal⟩ := by
  by_cases text : ∃ text, Utf8.decode file = some text
  · rw [disk.opens_text faithful named text] at succeeded
    cases succeeded
    rfl
  · rw [disk.refuses faithful named text] at succeeded
    cases succeeded

end Reboot

section Preservation

theorem sound_initial : Sound identity (World.initial : World crates) where
  named := by simp [World.initial, journal, commits]
  durable := Disk.clean []
  explained := trivial
  fresh := by simp [World.initial]
  queued := by
    intro process up
    cases up

/-- A step that commits nothing and keeps the file and the map only has to explain its event. -/
theorem Sound.event {process next : Process crates} {nextId nextId' : Nat}
    {history : History crates} {event : Event crates}
    (sound : Sound identity ⟨.up process, nextId, history⟩)
    (quiet : journal (event :: history) = journal history)
    (identified : next.witness.toIdentity = process.witness.toIdentity)
    (stored : next.witness.store.inner = process.witness.store.inner)
    (explains : Explains identity history event)
    (fresh : ∀ id vetted, Event.vetted id vetted ∈ event :: history → id < nextId')
    (queued : Queued (event :: history) next) :
    Sound identity ⟨.up next, nextId', event :: history⟩ where
  named := by
    rw [quiet]
    exact sound.named
  durable := by
    rw [quiet]
    have durable := sound.durable
    exact ⟨identified.trans durable.1, stored.trans durable.2⟩
  explained := ⟨explains, sound.explained⟩
  fresh := fresh
  queued := by
    intro other up
    cases up
    exact queued

theorem Sound.fresh_other {machine : Machine crates} {nextId : Nat} {history : History crates}
    {event : Event crates} (sound : Sound identity ⟨machine, nextId, history⟩)
    (other : ∀ id vetted, event ≠ .vetted id vetted) :
    ∀ id vetted, Event.vetted id vetted ∈ event :: history → id < nextId := by
  intro id vetted member
  rcases List.mem_cons.mp member with same | earlier
  · exact absurd same.symm (other id vetted)
  · exact sound.fresh id vetted earlier

theorem removed_sublist {α : Type} (front back : List α) (item : α) :
    (front ++ back).Sublist (front ++ item :: back) :=
  List.Sublist.append_left (List.sublist_cons_self item back) front

variable (faithful : crates.toStoreCrates.Faithful)

section Decision

variable {witness : Witness crates} {front back : List (Pending crates)}
  {replies : List (Commit crates)} {nextId : Nat} {history : History crates} {id : Nat}
  {vetted : Vetted crates} {timestamp : {timestamp : UInt64 // timestamp ≠ 0}}

theorem Sound.turn
    (sound : Sound identity
      ⟨.up ⟨witness, front ++ ⟨id, vetted, some timestamp⟩ :: back, replies⟩, nextId, history⟩) :
    witness.toIdentity = identity ∧
      (∀ origin, witness.latest origin = latestCommitted history origin) ∧
      Event.vetted id vetted ∈ history ∧ Event.clockRead id timestamp.val ∈ history := by
  have identified := sound.durable.1
  have stored := sound.durable.2
  have queued := sound.queued _ rfl
  have member : (⟨id, vetted, some timestamp⟩ : Pending crates) ∈
      front ++ ⟨id, vetted, some timestamp⟩ :: back := by simp
  refine ⟨identified, ?_, queued.vetted _ member, queued.read _ member timestamp rfl⟩
  intro origin
  have states : witness.store.inner.states = latestStates (journal history) := by rw [stored]
  rw [Witness.latest, Store.latest, states, latestCommitted]

theorem Sound.explains_commit {state : LogState} {body : Text}
    (sound : Sound identity
      ⟨.up ⟨witness, front ++ ⟨id, vetted, some timestamp⟩ :: back, replies⟩, nextId, history⟩)
    (approved : settle witness.toIdentity vetted timestamp.val (witness.latest vetted.origin) =
      .ok (state, body)) :
    Explains identity history (.committed ⟨id, vetted, timestamp.val, state, body⟩) := by
  obtain ⟨identified, latest, accepted, read⟩ := sound.turn
  rw [identified, latest] at approved
  exact ⟨accepted, read, approved⟩

theorem Sound.named_commit {state : LogState} {body : Text}
    (sound : Sound identity
      ⟨.up ⟨witness, front ++ ⟨id, vetted, some timestamp⟩ :: back, replies⟩, nextId, history⟩)
    (approved : settle witness.toIdentity vetted timestamp.val (witness.latest vetted.origin) =
      .ok (state, body)) :
    ∀ other ∈ journal history ++ [state], other.origin ≠ [] := by
  intro other member
  rcases List.mem_append.mp member with inside | last
  · exact sound.named other inside
  · rw [List.mem_singleton.mp last, settle_origin approved]
    exact vetted.origin_ne_nil

include faithful

theorem Sound.commit {state : LogState} {body : Text} {next : Witness crates}
    (sound : Sound identity
      ⟨.up ⟨witness, front ++ ⟨id, vetted, some timestamp⟩ :: back, replies⟩, nextId, history⟩)
    (approved : settle witness.toIdentity vetted timestamp.val (witness.latest vetted.origin) =
      .ok (state, body))
    (submitted : witness.submit vetted timestamp.val none = (.ok body, next)) :
    Sound identity
      ⟨.up ⟨next, front ++ back, ⟨id, vetted, timestamp.val, state, body⟩ :: replies⟩, nextId,
        .committed ⟨id, vetted, timestamp.val, state, body⟩ :: history⟩ where
  named := by
    rw [journal_committed]
    exact sound.named_commit approved
  durable := by
    have identified := sound.durable.1
    have stored := sound.durable.2
    rw [submit_ok faithful approved] at submitted
    cases submitted
    refine ⟨identified, ?_⟩
    change (⟨_, _⟩ : Inner) = _
    rw [stored, ← settle_origin approved, journal_committed]
    simp [journalFile, latestStates, LastWins.fold_concat]
  explained := ⟨sound.explains_commit approved, sound.explained⟩
  fresh := sound.fresh_other (by simp)
  queued := by
    intro process up
    cases up
    have rest : Queued history ⟨next, front ++ back, replies⟩ :=
      (sound.queued _ rfl).fewer (removed_sublist _ _ _) (List.Subset.refl _)
    have later : Queued (.committed ⟨id, vetted, timestamp.val, state, body⟩ :: history) _ :=
      rest.later (by simp)
    exact { later with
      replies := by
        intro commit member
        rcases List.mem_cons.mp member with rfl | earlier
        · exact List.mem_cons_self
        · exact later.replies commit earlier }

theorem Sound.crash {state : LogState} {body : Text} (count : Nat)
    (sound : Sound identity
      ⟨.up ⟨witness, front ++ ⟨id, vetted, some timestamp⟩ :: back, replies⟩, nextId, history⟩)
    (approved : settle witness.toIdentity vetted timestamp.val (witness.latest vetted.origin) =
      .ok (state, body)) :
    Sound identity
      ⟨.down (witness.submit vetted timestamp.val (some (.write count))).2.store.inner.file,
        nextId,
        if Whole crates state count then
          .committed ⟨id, vetted, timestamp.val, state, body⟩ :: history
        else history⟩ := by
  have fresh : state.origin ≠ [] := settle_origin approved ▸ vetted.origin_ne_nil
  have file : (witness.submit vetted timestamp.val (some (.write count))).2.store.inner.file =
      tornFile crates.toStoreCrates (journal history) state count := by
    rw [submit_file faithful _ approved, sound.durable.2]
    rfl
  rw [file]
  have disk : Disk crates.toStoreCrates _ (recoveredJournal _ _ state count) :=
    .torn (journal history) state count fresh
  by_cases whole : Whole crates state count
  · have recovered : recoveredJournal crates.toStoreCrates (journal history) state count =
        journal history ++ [state] := if_pos whole
    rw [if_pos whole]
    rw [recovered] at disk
    exact {
      named := by
        rw [journal_committed]
        exact sound.named_commit approved
      durable := by
        rw [journal_committed]
        exact disk
      explained := ⟨sound.explains_commit approved, sound.explained⟩
      fresh := sound.fresh_other (by simp)
      queued := by
        intro process up
        cases up }
  · have recovered : recoveredJournal crates.toStoreCrates (journal history) state count =
        journal history := if_neg whole
    rw [if_neg whole]
    rw [recovered] at disk
    exact {
      named := sound.named
      durable := disk
      explained := sound.explained
      fresh := sound.fresh
      queued := by
        intro process up
        cases up }

end Decision

include faithful

theorem sound_step {world next : World crates} (sound : Sound identity world)
    (step : Step identity world next) : Sound identity next := by
  cases step with
  | boot named started =>
      rename_i config file after witness nextId history
      have opened := (fromConfig_ok started).1
      have identified := (fromConfig_ok started).2
      have inner := Disk.opens faithful sound.durable sound.named opened
      exact {
        named := sound.named
        durable := ⟨by rw [identified, named], inner⟩
        explained := sound.explained
        fresh := sound.fresh
        queued := by
          intro process up
          cases up
          exact ⟨by simp, by simp, by simp, by simp, by simp⟩ }
  | swap managed =>
      rename_i process nextId history
      exact {
        named := sound.named
        durable := sound.durable
        explained := sound.explained
        fresh := sound.fresh
        queued := by
          intro other up
          cases up
          exact (sound.queued _ rfl).fewer (List.Sublist.refl _) (List.Subset.refl _) }
  | accept passed =>
      rename_i process nextId history body vetted
      have queued := sound.queued _ rfl
      have unused : ∀ other, Event.vetted nextId other ∉ history := by
        intro other member
        exact absurd (sound.fresh nextId other member) (Nat.lt_irrefl nextId)
      refine sound.event rfl rfl rfl unused ?_ ?_
      · intro id other member
        rcases List.mem_cons.mp member with same | earlier
        · cases same
          exact Nat.lt_succ_self nextId
        · exact Nat.lt_succ_of_lt (sound.fresh id other earlier)
      · have later : Queued (.vetted nextId vetted :: history) process := queued.later (by simp)
        exact {
          distinct := by
            rw [List.map_append, List.nodup_append]
            refine ⟨queued.distinct, by simp, ?_⟩
            intro id member other last same
            obtain ⟨request, inside, rfl⟩ := List.mem_map.mp member
            have below : request.id < nextId := sound.fresh _ _ (queued.vetted request inside)
            have equal : request.id = nextId := by simpa [same] using last
            omega
          vetted := by
            intro request member
            rcases List.mem_append.mp member with inside | last
            · exact later.vetted request inside
            · cases List.mem_singleton.mp last
              exact List.mem_cons_self
          unread := by
            intro request member none timestamp
            rcases List.mem_append.mp member with inside | last
            · exact later.unread request inside none timestamp
            · cases List.mem_singleton.mp last
              intro read
              rcases List.mem_cons.mp read with same | earlier
              · cases same
              · exact sound.no_clockRead (Nat.le_refl nextId) timestamp earlier
          read := by
            intro request member timestamp some
            rcases List.mem_append.mp member with inside | last
            · exact later.read request inside timestamp some
            · cases List.mem_singleton.mp last
              cases some
          replies := later.replies }
  | refuse refused =>
      exact sound.event rfl rfl rfl ⟨_, _, refused⟩ (sound.fresh_other (by simp))
        ((sound.queued _ rfl).later (by simp))
  | readClock read =>
      rename_i witness front back replies nextId history id vetted now timestamp
      have queued := sound.queued _ rfl
      have self : (⟨id, vetted, none⟩ : Pending crates) ∈ front ++ ⟨id, vetted, none⟩ :: back := by
        simp
      have accepted := queued.vetted _ self
      have unread := queued.unread _ self rfl
      have explains : Explains identity history (.clockRead id timestamp.val) :=
        ⟨timestamp.property, ⟨vetted, accepted⟩, unread⟩
      refine sound.event rfl rfl rfl explains (sound.fresh_other (by simp)) ?_
      have ids : (front.map (·.id) ++ id :: back.map (·.id)).Nodup := by
        simpa using queued.distinct
      have others : ∀ request ∈ front ++ back, request.id ≠ id := by
        intro request member same
        have inside : id ∈ front.map (·.id) ++ back.map (·.id) := by
          rw [← List.map_append, List.mem_map]
          exact ⟨request, member, same⟩
        have apart := (List.nodup_middle.mp ids)
        exact (List.nodup_cons.mp apart).1 inside
      have members : ∀ request,
          request ∈ front ++ ⟨id, vetted, some timestamp⟩ :: back →
            request = ⟨id, vetted, some timestamp⟩ ∨
              (request ∈ front ++ back ∧ request ∈ front ++ ⟨id, vetted, none⟩ :: back) := by
        intro request member
        simp only [List.mem_append, List.mem_cons] at member ⊢
        tauto
      exact {
        distinct := by simpa using ids
        vetted := by
          intro request member
          rcases members request member with rfl | ⟨-, before⟩
          · exact List.mem_cons_of_mem _ accepted
          · exact List.mem_cons_of_mem _ (queued.vetted request before)
        unread := by
          intro request member none other
          rcases members request member with rfl | ⟨inside, before⟩
          · cases none
          · intro found
            rcases List.mem_cons.mp found with same | earlier
            · cases same
              exact others request inside rfl
            · exact queued.unread request before none other earlier
        read := by
          intro request member other some
          rcases members request member with rfl | ⟨-, before⟩
          · cases some
            exact List.mem_cons_self
          · exact List.mem_cons_of_mem _ (queued.read request before other some)
        replies := fun commit member =>
          List.mem_cons_of_mem _ (queued.replies commit member) }
  | clockFails failed =>
      rename_i witness front back replies nextId history id vetted now error
      have queued := sound.queued _ rfl
      have accepted := queued.vetted ⟨id, vetted, none⟩ (by simp)
      have clock : error = .clock := by
        cases now with
        | none =>
            cases failed
            rfl
        | some seconds =>
            simp only [stamp] at failed
            split_ifs at failed
            cases failed
            rfl
      exact sound.event rfl rfl rfl ⟨accepted, Or.inl clock⟩ (sound.fresh_other (by simp))
        ((queued.fewer (removed_sublist _ _ _) (List.Subset.refl _)).later (by simp))
  | commit approved submitted => exact sound.commit faithful approved submitted
  | reject failed =>
      rename_i witness front back replies nextId history id vetted timestamp error next
      obtain ⟨refused, rfl⟩ := settle_of_submit_error faithful failed
      obtain ⟨identified, latest, accepted, read⟩ := sound.turn
      rw [identified, latest] at refused
      exact sound.event rfl rfl rfl ⟨accepted, Or.inr ⟨_, read, refused⟩⟩
        (sound.fresh_other (by simp))
        (((sound.queued _ rfl).fewer (removed_sublist _ _ _) (List.Subset.refl _)).later (by simp))
  | respond =>
      rename_i witness pending front back nextId history commit
      have queued := sound.queued _ rfl
      have committed := queued.replies commit (by simp)
      exact sound.event rfl rfl rfl committed (sound.fresh_other (by simp))
        ((queued.fewer (List.Sublist.refl _) (removed_sublist _ _ _).subset).later (by simp))
  | monitor found =>
      rename_i process nextId history hash state
      rcases found with ⟨⟨origin, looked⟩, -⟩
      have states : process.witness.store.inner.states = latestStates (journal history) := by
        rw [sound.durable.2]
      rw [states] at looked
      have same : state.origin = origin := LastWins.key_of_lookup looked
      have latest : latestCommitted history state.origin = some state := same ▸ looked
      exact sound.event rfl rfl rfl latest (sound.fresh_other (by simp))
        ((sound.queued _ rfl).later (by simp))
  | stop =>
      rename_i process nextId history
      exact {
        named := sound.named
        durable := by
          have stored := sound.durable.2
          change Disk _ process.witness.store.inner.file _
          rw [stored]
          exact .clean _
        explained := sound.explained
        fresh := sound.fresh
        queued := by
          intro other up
          cases up }
  | crash count approved => exact sound.crash faithful count approved

/-- The invariant of every run. -/
theorem sound_of_reachable {world : World crates} (reachable : Reachable identity world) :
    Sound identity world := by
  induction reachable with
  | refl => exact sound_initial
  | tail _ step ih => exact sound_step faithful ih step

end Preservation

end Invariant

end MosskeysWitness
