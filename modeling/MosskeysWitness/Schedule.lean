import MosskeysWitness.System

/-! Runs with the requests given by their ids: requests overlap, the process stops, dies inside an
append and starts again, and a schedule says what happens when. -/

namespace MosskeysWitness

variable {crates : WitnessCrates}

/-- The origin a body is a request for, if it parses. -/
def originOf (crates : WitnessCrates) (body : Text) : Option Text :=
  match parseRequest crates body with
  | .error _ => none
  | .ok request => some (crates.log.origin request.checkpoint)

/-- What a crash inside an append leaves of the record's line. -/
inductive Remnant where
  /-- Some bytes of the JSON object, and not all. -/
  | part (count : Nat)
  | object
  | line
  deriving DecidableEq

namespace Remnant

def whole : Remnant → Bool
  | part _ => false
  | object | line => true

def bytes (crates : StoreCrates) (state : LogState) : Remnant → Nat
  | part count => min count ((Utf8.encode (recordText crates state)).length - 1)
  | object => (Utf8.encode (recordText crates state)).length
  | line => (Utf8.encode (recordText crates state)).length + 1

end Remnant

inductive Action where
  | receive (id : Nat)
  | readClock (id : Nat) (now : Option UInt64)
  | turn (id : Nat)
  | stop
  | crash (id : Nat) (left : Remnant)
  | boot
  deriving DecidableEq

/-- The allowlist, the keys and the requests of a run. -/
structure Scenario (crates : WitnessCrates) where
  config : Config crates
  ed25519 : LoadedKey
  mldsa44 : LoadedKey
  requests : Nat → Text

structure InFlight (crates : WitnessCrates) where
  vetted : Vetted crates
  timestamp : Option {timestamp : UInt64 // timestamp ≠ 0}

inductive Node (crates : WitnessCrates) where
  | down (file : List UInt8)
  | up (witness : Witness crates) (inFlight : Nat → Option (InFlight crates))

structure Answer where
  id : Nat
  outcome : Except WitnessError Text

namespace Scenario

variable (scenario : Scenario crates)

def identity : Identity := ⟨scenario.config.name, scenario.ed25519, scenario.mldsa44⟩

/-- The file a crash leaves: where the request's turn would have written a record, a remnant of
its line is there. -/
def crashed (witness : Witness crates) (left : Remnant) : Option (InFlight crates) → List UInt8
  | some ⟨vetted, some timestamp⟩ =>
      match settle witness.toIdentity vetted timestamp.val (witness.latest vetted.origin) with
      | .ok (state, _) =>
          (witness.submit vetted timestamp.val
            (some (.write (left.bytes crates.toStoreCrates state)))).2.store.inner.file
      | .error _ => witness.store.inner.file
  | _ => witness.store.inner.file

/-- One action, and the answers it gives. An action that does not apply changes nothing. -/
def act : Node crates → Action → Node crates × List Answer
  | .up witness inFlight, .receive id =>
      match vet crates witness.logs (scenario.requests id) with
      | .error e => (.up witness inFlight, [⟨id, .error e⟩])
      | .ok vetted => (.up witness (Function.update inFlight id (some ⟨vetted, none⟩)), [])
  | .up witness inFlight, .readClock id now =>
      match inFlight id with
      | some ⟨vetted, none⟩ =>
          match stamp now with
          | .error e => (.up witness (Function.update inFlight id none), [⟨id, .error e⟩])
          | .ok timestamp =>
              (.up witness (Function.update inFlight id (some ⟨vetted, some timestamp⟩)), [])
      | _ => (.up witness inFlight, [])
  | .up witness inFlight, .turn id =>
      match inFlight id with
      | some ⟨vetted, some timestamp⟩ =>
          let (outcome, next) := witness.submit vetted timestamp.val none
          (.up next (Function.update inFlight id none), [⟨id, outcome⟩])
      | _ => (.up witness inFlight, [])
  | .up witness _, .stop => (.down witness.store.inner.file, [])
  | .up witness inFlight, .crash id left => (.down (crashed witness left (inFlight id)), [])
  | .down file, .boot =>
      match Witness.fromConfig crates scenario.config
        (.ok scenario.ed25519 : Except Empty LoadedKey) (.ok scenario.mldsa44) false file with
      | (.ok witness, _) => (.up witness fun _ => none, [])
      | (.error _, after) => (.down after, [])
  | node, _ => (node, [])

/-- A whole schedule, with all the answers it gives. -/
def run (node : Node crates) : List Action → Node crates × List Answer
  | [] => (node, [])
  | action :: rest =>
      let (next, answers) := scenario.act node action
      let (last, more) := run next rest
      (last, answers ++ more)

def Owns (origin : Text) (id : Nat) : Prop := originOf crates (scenario.requests id) = some origin

instance (origin : Text) (id : Nat) : Decidable (scenario.Owns origin id) :=
  inferInstanceAs (Decidable (_ = _))

def answersOf (origin : Text) (answers : List Answer) : List Answer :=
  answers.filter fun answer => scenario.Owns origin answer.id

end Scenario

section OneRun

variable {scenario : Scenario crates} {witness : Witness crates} {journal : List LogState}

/-- A running witness of the scenario whose file and memory stand for `journal`. -/
structure Standing (scenario : Scenario crates) (journal : List LogState)
    (witness : Witness crates) : Prop where
  named : ∀ state ∈ journal, state.origin ≠ []
  identified : witness.toIdentity = scenario.identity
  listed : witness.logs = .collect scenario.config.logs
  stored : witness.store.inner =
    ⟨journalFile crates.toStoreCrates journal, latestStates journal⟩

theorem Standing.latest (standing : Standing scenario journal witness) (origin : Text) :
    witness.latest origin = (latestStates journal).lookup origin := by
  rw [Witness.latest, Store.latest, standing.stored]

theorem Standing.disk (standing : Standing scenario journal witness) :
    Disk crates.toStoreCrates witness.store.inner.file journal := by
  rw [standing.stored]
  exact .clean journal

variable (faithful : crates.toStoreCrates.Faithful)
include faithful

/-- A start finds the journal in any file that is text, whatever a crash left behind it. -/
theorem Disk.boots {file : List UInt8} (disk : Disk crates.toStoreCrates file journal)
    (named : ∀ state ∈ journal, state.origin ≠ []) (listed : scenario.config.logs ≠ [])
    (text : Utf8.decode file ≠ none) :
    ∃ witness, scenario.act (.down file) .boot = (.up witness fun _ => none, []) ∧
      Standing scenario journal witness := by
  have opens : Store.open crates.toStoreCrates scenario.config.stateFile false file = _ :=
    disk.opens_text faithful named (Option.ne_none_iff_exists'.mp text)
  let witness : Witness crates :=
    { name := scenario.config.name
      ed25519 := scenario.ed25519
      mldsa44 := scenario.mldsa44
      apiPrefix := scenario.config.apiPrefix
      manualLogs := .collect scenario.config.manualLogs
      logs := .collect scenario.config.logs
      store := opened scenario.config.stateFile (journalFile crates.toStoreCrates journal) journal }
  refine ⟨witness, ?_, named, rfl, rfl, rfl⟩
  rw [Scenario.act, Witness.fromConfig, if_neg listed]
  simp only [opens]
  rfl

/-- Where there are no logs, or where the file is cut inside a character, no start succeeds. -/
theorem Disk.staysDown {file : List UInt8} (disk : Disk crates.toStoreCrates file journal)
    (named : ∀ state ∈ journal, state.origin ≠ [])
    (blocked : scenario.config.logs = [] ∨ Utf8.decode file = none) :
    scenario.act (.down file) .boot = (.down file, []) := by
  rw [Scenario.act, Witness.fromConfig]
  by_cases empty : scenario.config.logs = []
  · rw [if_pos empty]
  · have broken := blocked.resolve_left empty
    have refuses : Store.open crates.toStoreCrates scenario.config.stateFile false file = _ :=
      disk.refuses faithful named (by rw [broken]; simp)
    rw [if_neg empty]
    simp only [refuses]

variable {vetted : Vetted crates} {timestamp : UInt64} {state : LogState} {body : Text}

theorem Standing.submit (standing : Standing scenario journal witness)
    (approved : settle scenario.identity vetted timestamp
      ((latestStates journal).lookup vetted.origin) = .ok (state, body)) :
    ∃ next, witness.submit vetted timestamp none = (.ok body, next) ∧
      Standing scenario (journal ++ [state]) next := by
  rw [← standing.identified, ← standing.latest] at approved
  have fresh : state.origin = vetted.origin := settle_origin approved
  refine ⟨_, submit_ok faithful approved, ?_, standing.identified, standing.listed, ?_⟩
  · intro other member
    rcases List.mem_append.mp member with inside | last
    · exact standing.named other inside
    · rw [List.mem_singleton.mp last, fresh]
      exact vetted.origin_ne_nil
  · have stored := standing.stored
    dsimp only
    rw [stored, ← fresh]
    simp [journalFile, latestStates, LastWins.fold_concat]

omit faithful in
theorem Standing.turnedAway (standing : Standing scenario journal witness) {error : WitnessError}
    (refused : settle scenario.identity vetted timestamp
      ((latestStates journal).lookup vetted.origin) = .error error) :
    witness.submit vetted timestamp none = (.error error, witness) := by
  rw [← standing.identified, ← standing.latest] at refused
  exact submit_error none refused

theorem Standing.crash_file (standing : Standing scenario journal witness)
    (approved : settle scenario.identity vetted timestamp
      ((latestStates journal).lookup vetted.origin) = .ok (state, body)) (left : Remnant) :
    (witness.submit vetted timestamp
        (some (.write (left.bytes crates.toStoreCrates state)))).2.store.inner.file =
      journalFile crates.toStoreCrates journal ++
        (recordLine crates.toStoreCrates state).take (left.bytes crates.toStoreCrates state) := by
  rw [← standing.identified, ← standing.latest] at approved
  have file := submit_file faithful (some (.write (left.bytes crates.toStoreCrates state))) approved
  rw [file, standing.stored]
  rfl

theorem Standing.crash (standing : Standing scenario journal witness)
    (approved : settle scenario.identity vetted timestamp
      ((latestStates journal).lookup vetted.origin) = .ok (state, body)) (left : Remnant) :
    Disk crates.toStoreCrates
        (witness.submit vetted timestamp
          (some (.write (left.bytes crates.toStoreCrates state)))).2.store.inner.file
        (if left.whole then journal ++ [state] else journal) ∧
      ∀ other ∈ if left.whole then journal ++ [state] else journal, other.origin ≠ [] := by
  rcases standing.submit faithful approved with ⟨next, -, grown⟩
  have fresh : state.origin ≠ [] := grown.named state (by simp)
  have file := standing.crash_file faithful approved left
  have cut : (if left.whole then journal ++ [state] else journal) =
      recoveredJournal crates.toStoreCrates journal state
        (left.bytes crates.toStoreCrates state) := by
    have filled : 0 < (Utf8.encode (recordText crates.toStoreCrates state)).length := by
      apply List.length_pos_of_ne_nil
      simp [recordText_ne_nil faithful]
    rw [recoveredJournal]
    cases left with
    | part count =>
        have short : ¬ (Utf8.encode (recordText crates.toStoreCrates state)).length ≤
            min count ((Utf8.encode (recordText crates.toStoreCrates state)).length - 1) := by
          omega
        exact (if_neg short).symm
    | object => simp [Remnant.whole, Remnant.bytes]
    | line => simp [Remnant.whole, Remnant.bytes]
  constructor
  · rw [file, cut]
    exact Disk.torn journal state _ fresh
  · split
    · exact grown.named
    · exact standing.named

end OneRun

end MosskeysWitness
