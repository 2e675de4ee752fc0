import MosskeysWitness.Merge
import MosskeysWitness.AtomicWrite

/-! The poller of a running witness and one-shot runs on one state directory, one file operation
at a time. -/

namespace MosskeysWitness.Interleaving

open AtomicWrite

/-- Who makes a pass. One-shot runs may follow each other under one name. -/
inductive Runner (ι : Type) where
  | poller
  | oneShot (i : ι)
  deriving DecidableEq

/-- How far a pass is. During `writing` its `write_atomic` call tells the rest. -/
inductive Stage (crates : WitnessCrates) where
  | idle
  | checked (present : Bool)
  | asking (ifNoneMatch : Option Text)
  | validated (logs : List (LogConfig crates)) (newEtag : Option Text)
  | writing (logs : List (LogConfig crates)) (newEtag : Option Text)
  | caching (outcome : SyncOutcome) (logs : List (LogConfig crates)) (newEtag : Option Text)
  | ended (result : Except SyncError (SyncReport crates))

/-- `memory` is there while the witness runs. `foreign` tells that a one-shot run has replaced the
managed file since the witness last loaded or replaced it. -/
structure World (crates : WitnessCrates) (ι : Type) where
  writers : Writers (Runner ι)
  etag : File
  stage : Runner ι → Stage crates
  memory : Option (Witness crates)
  foreign : Bool

section Machine

variable (crates : SyncCrates)

/-- The part of a pass from the answer to the validated entries; there are none in a 304. -/
def received (answer : Except String HttpResponse) :
    Except SyncError (Option (List (LogConfig crates.toWitnessCrates) × Option Text)) :=
  match answer with
  | .error e => .error (.http e)
  | .ok response =>
      if response.status = 304 then .ok none
      else if response.status = 200 then
        match response.readToString maxFeedBytes with
        | .error e => .error (.http e)
        | .ok body =>
            match parseFeed crates body with
            | .error e => .error e
            | .ok logs => .ok (some (logs, response.etag.bind headerText))
      else .error (.status response.status)

/-- The part of a pass that compares the entries with the managed file. -/
def compared (target : FeedTarget) (logs : List (LogConfig crates.toWitnessCrates))
    (newEtag : Option Text) (managed : File) : Except SyncError (Plan crates.toWitnessCrates) :=
  match loadManagedEntries crates.toConfigCrates target.managedPath managed with
  | .error e => .error (.config e)
  | .ok existing =>
      if existing.any fun entries => entriesOf crates entries = entriesOf crates logs
      then .ok (.unchanged logs newEtag)
      else match renderManaged crates logs target.feedUrl with
        | .error e => .error e
        | .ok text => .ok (.rewrite logs (Utf8.encode text) newEtag)

theorem planSync_eq (target : FeedTarget) (client : HttpClient) (dir : StateDir) :
    planSync crates target client dir =
      match received crates (client ⟨target.feedUrl, cachedEtag dir⟩) with
      | .error e => .error e
      | .ok none => .ok .notModified
      | .ok (some (logs, newEtag)) => compared crates target logs newEtag dir.managed := by
  unfold planSync received
  cases client ⟨target.feedUrl, cachedEtag dir⟩ with
  | error e => rfl
  | ok response =>
      dsimp only
      split_ifs
      · rfl
      · cases response.readToString maxFeedBytes with
        | error e => rfl
        | ok body =>
            dsimp only
            cases parseFeed crates body with
            | error e => rfl
            | ok logs => rfl
      · rfl

theorem compared_ok {crates : SyncCrates} {target : FeedTarget}
    {logs : List (LogConfig crates.toWitnessCrates)} {newEtag : Option Text} {managed : File}
    {plan : Plan crates.toWitnessCrates}
    (decided : compared crates target logs newEtag managed = .ok plan) :
    plan = .unchanged logs newEtag ∨ ∃ text, renderManaged crates logs target.feedUrl = .ok text ∧
      plan = .rewrite logs (Utf8.encode text) newEtag := by
  unfold compared at decided
  split at decided
  · cases decided
  · split_ifs at decided
    · cases decided
      exact Or.inl rfl
    · split at decided
      · cases decided
      · rename_i text rendered
        cases decided
        exact Or.inr ⟨text, rendered, rfl⟩

def applied (result : Except SyncError (SyncReport crates.toWitnessCrates))
    (witness : Witness crates.toWitnessCrates) : Witness crates.toWitnessCrates :=
  match result with
  | .error _ => witness
  | .ok report =>
      if report.outcome = .updated then
        match report.entries with
        | some entries => (witness.applyManagedEntries entries).2
        | none => witness
      else witness

theorem pollOnce_eq (target : FeedTarget) (client : HttpClient) (faults : Faults)
    (witness : Witness crates.toWitnessCrates) (dir : StateDir) :
    pollOnce crates target client faults witness dir =
      (applied crates (syncFeed crates target client faults dir).1 witness,
        (syncFeed crates target client faults dir).2) := by
  rcases passed : syncFeed crates target client faults dir with ⟨result, after⟩
  unfold pollOnce applied
  rw [passed]
  cases result with
  | error e => rfl
  | ok report =>
      dsimp only
      split_ifs
      · cases report.entries <;> rfl
      · rfl

variable {ι : Type} [DecidableEq ι] {crates}

abbrev World.managed {crates : WitnessCrates} (world : World crates ι) : File :=
  world.writers.disk.file .managed

def World.enter {crates : WitnessCrates} (world : World crates ι) (runner : Runner ι)
    (stage : Stage crates) : World crates ι :=
  { world with stage := Function.update world.stage runner stage }

def World.set {crates : WitnessCrates} (world : World crates ι) (runner : Runner ι)
    (disk : Directory) (call : Option WriteCall) : World crates ι :=
  { world with writers := world.writers.set runner disk call }

def World.finish (crates : SyncCrates) (world : World crates.toWitnessCrates ι)
    (result : Except SyncError (SyncReport crates.toWitnessCrates)) :
    World crates.toWitnessCrates ι :=
  { world.enter .poller .idle with memory := world.memory.map (applied crates result) }

/-- Whether the managed file is foreign to the witness after a step of a call. -/
def replaced (runner : Runner ι) (phase : Phase) (foreign : Bool) : Bool :=
  match phase with
  | .returned (.ok ()) => runner ≠ .poller
  | _ => foreign

variable (crates)

/-- Steps of a pass that change no file, given the managed file and the ETag file. The feed
answers anything. -/
inductive Moves (target : FeedTarget) (managed etag : File) :
    Stage crates.toWitnessCrates → Stage crates.toWitnessCrates → Prop
  | check : Moves target managed etag .idle (.checked managed.isSome)
  | ask {present : Bool} : Moves target managed etag (.checked present)
      (.asking (if present then readEtag etag else none))
  | fails {ifNoneMatch e} {client : HttpClient} :
      received crates (client ⟨target.feedUrl, ifNoneMatch⟩) = .error e →
      Moves target managed etag (.asking ifNoneMatch) (.ended (.error e))
  | notModified {ifNoneMatch} {client : HttpClient} :
      received crates (client ⟨target.feedUrl, ifNoneMatch⟩) = .ok none →
      Moves target managed etag (.asking ifNoneMatch) (.ended (.ok ⟨.unchanged, none⟩))
  | validates {ifNoneMatch logs newEtag} {client : HttpClient} : client.ChecksUrls →
      received crates (client ⟨target.feedUrl, ifNoneMatch⟩) = .ok (some (logs, newEtag)) →
      Moves target managed etag (.asking ifNoneMatch) (.validated logs newEtag)
  | refuses {logs newEtag e} : compared crates target logs newEtag managed = .error e →
      Moves target managed etag (.validated logs newEtag) (.ended (.error e))
  | same {logs newEtag} :
      compared crates target logs newEtag managed = .ok (.unchanged logs newEtag) →
      Moves target managed etag (.validated logs newEtag) (.caching .unchanged logs newEtag)

/-- One step. Every file operation may fail; one-shot runs are killed, the witness stops and
starts again, and a power loss ends them all. -/
inductive Step (raw : RawConfig) (target : FeedTarget) :
    World crates.toWitnessCrates ι → World crates.toWitnessCrates ι → Prop
  | moves {world runner stage} : (runner = .poller → world.memory.isSome = true) →
      Moves crates target world.managed world.etag (world.stage runner) stage →
      Step raw target world (world.enter runner stage)
  | begins {world runner logs newEtag contents} : world.stage runner = .validated logs newEtag →
      compared crates target logs newEtag world.managed = .ok (.rewrite logs contents newEtag) →
      Step raw target world
        { world.enter runner (.writing logs newEtag) with
          writers :=
            { world.writers.set runner world.writers.disk (some ⟨contents, .called⟩) with
              begun := contents :: world.writers.begun } }
  | writes {world runner call disk phase} : world.writers.calls runner = some call →
      WriteStep call.contents (world.writers.disk, call.phase) (disk, phase) →
      Step raw target world
        { world.set runner disk (some ⟨call.contents, phase⟩) with
          foreign := replaced runner phase world.foreign }
  | written {world runner logs newEtag contents} : world.stage runner = .writing logs newEtag →
      world.writers.calls runner = some ⟨contents, .returned (.ok ())⟩ →
      Step raw target world
        ((world.set runner world.writers.disk none).enter runner (.caching .updated logs newEtag))
  | writeFails {world runner logs newEtag contents e} :
      world.stage runner = .writing logs newEtag →
      world.writers.calls runner = some ⟨contents, .returned (.error e)⟩ →
      Step raw target world
        ((world.set runner world.writers.disk none).enter runner
          (.ended (.error (.io target.managedPath e))))
  | tears {world runner outcome logs etag} (written : Nat) :
      world.stage runner = .caching outcome logs (some etag) →
      Step raw target world { world with etag := some ((etagLine etag).take written) }
  | saves {world runner outcome logs newEtag} (fault : Option EtagFault) :
      world.stage runner = .caching outcome logs newEtag →
      Step raw target world
        { world.enter runner (.ended (.ok ⟨outcome, some logs⟩)) with
          etag := (saveEtag newEtag fault (dirOf world.writers.disk world.etag)).etag }
  | finishes {world result} : world.stage .poller = .ended result →
      Step raw target world (world.finish crates result)
  | exits {world i result} : world.stage (.oneShot i) = .ended result →
      Step raw target world (world.enter (.oneShot i) .idle)
  | killed (world i) : Step raw target world
      ((world.set (.oneShot i) world.writers.disk none).enter (.oneShot i) .idle)
  | stops (world) : Step raw target world
      { (world.set .poller world.writers.disk none).enter .poller .idle with memory := none }
  | boots {world witness} : world.memory = none →
      Boots crates.toConfigCrates raw world.managed witness →
      Step raw target world { world with memory := some witness, foreign := false }
  | powerLoss {world disk} (etag : File) : world.writers.disk.Loses disk →
      Step raw target world
        { writers := { world.writers with disk, calls := fun _ => none }
          etag, stage := fun _ => .idle, memory := none, foreign := world.foreign }

/-- Runs from a disk at rest, on which no two calls share the temporary file. -/
inductive Runs (raw : RawConfig) (target : FeedTarget) (disk : Directory) (etag : File) :
    World crates.toWitnessCrates ι → Prop
  | start : Runs raw target disk etag ⟨⟨disk, fun _ => none, []⟩, etag, fun _ => .idle, none, false⟩
  | step {world after} : Runs raw target disk etag world → Step crates raw target world after →
      CreatesAlone world.writers after.writers → Runs raw target disk etag after

end Machine

section Writers

variable {crates : SyncCrates} {ι : Type} [DecidableEq ι] {raw : RawConfig} {target : FeedTarget}
  {world after : World crates.toWitnessCrates ι}

/-- Only a pass in its write phase is in a call. -/
def Calling {crates : WitnessCrates} (world : World crates ι) : Prop :=
  ∀ runner call, world.writers.calls runner = some call →
    ∃ logs newEtag, world.stage runner = .writing logs newEtag

omit [DecidableEq ι] in
theorem Calling.no_call {crates : WitnessCrates} {world : World crates ι} (calling : Calling world)
    {runner : Runner ι} (elsewhere : ∀ logs newEtag, world.stage runner ≠ .writing logs newEtag) :
    world.writers.calls runner = none := by
  cases called : world.writers.calls runner with
  | none => rfl
  | some call =>
      obtain ⟨logs, newEtag, writing⟩ := calling runner call called
      exact absurd writing (elsewhere logs newEtag)

theorem Calling.enter {crates : WitnessCrates} {world : World crates ι} (calling : Calling world)
    {runner : Runner ι} (free : world.writers.calls runner = none) (stage : Stage crates) :
    Calling (world.enter runner stage) := by
  intro other call called
  have apart : other ≠ runner := by
    intro same
    subst same
    cases free.symm.trans called
  obtain ⟨logs, newEtag, writing⟩ := calling other call called
  exact ⟨logs, newEtag, (Function.update_of_ne apart _ _).trans writing⟩

theorem Calling.set {crates : WitnessCrates} {world : World crates ι} (calling : Calling world)
    {runner : Runner ι} {slot : Option WriteCall}
    (writing : ∀ call, slot = some call →
      ∃ logs newEtag, world.stage runner = .writing logs newEtag)
    (disk : Directory) : Calling (world.set runner disk slot) := by
  intro other call called
  rcases set_calls called with ⟨here, same⟩ | ⟨-, kept⟩
  · subst here
    exact writing call same
  · exact calling other call kept

theorem Moves.not_writing {managed etag : File} {stage next : Stage crates.toWitnessCrates}
    (moves : Moves crates target managed etag stage next) (logs newEtag) :
    stage ≠ .writing logs newEtag := by
  intro writing
  subst writing
  cases moves

omit [DecidableEq ι] in
theorem Calling.free {crates : WitnessCrates} {world : World crates ι} (calling : Calling world)
    {runner : Runner ι} {stage : Stage crates} (here : world.stage runner = stage)
    (elsewhere : ∀ logs newEtag, stage ≠ .writing logs newEtag) :
    world.writers.calls runner = none := by
  apply calling.no_call
  rw [here]
  exact elsewhere

theorem Step.calling (step : Step crates raw target world after) (calling : Calling world) :
    Calling after := by
  have cleared : ∀ runner stage,
      Calling ((world.set runner world.writers.disk none).enter runner stage) := by
    intro runner stage
    apply Calling.enter
    · apply calling.set
      intro call held
      cases held
    · exact Function.update_self _ _ _
  cases step with
  | moves alive moves => exact calling.enter (calling.no_call moves.not_writing) _
  | begins validated compared =>
      rename_i runner logs newEtag contents
      have entered : Calling (world.enter runner (.writing logs newEtag)) :=
        calling.enter (calling.free validated fun _ _ same => by cases same) _
      refine entered.set ?_ world.writers.disk
      intro call _
      exact ⟨logs, newEtag, Function.update_self _ _ _⟩
  | writes called step =>
      apply calling.set
      intro call _
      exact calling _ _ called
  | written writing called => exact cleared _ _
  | writeFails writing called => exact cleared _ _
  | tears count caching => exact calling
  | saves fault caching =>
      exact calling.enter (calling.free caching fun _ _ same => by cases same) _
  | finishes ended => exact calling.enter (calling.free ended fun _ _ same => by cases same) _
  | exits ended => exact calling.enter (calling.free ended fun _ _ same => by cases same) _
  | killed i => exact cleared _ _
  | stops => exact cleared _ _
  | boots down boots => exact calling
  | powerLoss etag lost =>
      intro runner call held
      cases held

theorem Step.writers (step : Step crates raw target world after) (calling : Calling world) :
    after.writers = world.writers ∨ world.writers.Step after.writers := by
  cases step with
  | begins validated compared =>
      right
      apply Writers.Step.begin
      apply calling.no_call
      intro logs newEtag writing
      cases validated.symm.trans writing
  | writes called step => exact Or.inr (.write called step)
  | written writing called => exact Or.inr (.leave called)
  | writeFails writing called => exact Or.inr (.leave called)
  | killed i => exact Or.inr (.kill _ _)
  | stops => exact Or.inr (.kill _ _)
  | powerLoss etag lost => exact Or.inr (.powerLoss lost)
  | moves | tears | saves | finishes | exits | boots => exact Or.inl rfl

theorem Runs.calling {disk : Directory} {etag : File}
    (runs : Runs crates raw target disk etag world) : Calling world := by
  induction runs with
  | start =>
      intro runner call held
      cases held
  | step _ step _ ih => exact step.calling ih

theorem Runs.guarded {disk : Directory} {etag : File} (rest : disk.AtRest)
    (runs : Runs crates raw target disk etag world) : Guarded disk world.writers := by
  induction runs with
  | start => exact rest.guarded
  | step runs step alone ih =>
      rcases step.writers runs.calling with same | step
      · rw [same]
        exact ih
      · exact ih.step step alone

end Writers

section Alone

variable {crates : SyncCrates} {ι : Type} [DecidableEq ι] {raw : RawConfig} {target : FeedTarget}
  {disk : Directory} {etag : File} {world : World crates.toWitnessCrates ι} {runner : Runner ι}

omit [DecidableEq ι] in
theorem createsAlone_refl (writers : Writers (Runner ι)) : CreatesAlone writers writers := by
  intro i creates
  obtain ⟨contents, inode, called, writing⟩ := creates
  cases called.symm.trans writing

theorem enter_enter {crates : WitnessCrates} (world : World crates ι) (runner : Runner ι)
    (stage next : Stage crates) :
    (world.enter runner stage).enter runner next = world.enter runner next := by
  simp only [World.enter, Function.update_idem]

theorem enter_here {crates : WitnessCrates} {world : World crates ι} {runner : Runner ι}
    {stage : Stage crates} (here : world.stage runner = stage) :
    world.enter runner stage = world := by
  subst here
  rw [World.enter, Function.update_eq_self]

theorem Runs.move {stage next : Stage crates.toWitnessCrates}
    (runs : Runs crates raw target disk etag (world.enter runner stage))
    (alive : runner = .poller → world.memory.isSome = true)
    (moves : Moves crates target world.managed world.etag stage next) :
    Runs crates raw target disk etag (world.enter runner next) := by
  have here : (world.enter runner stage).stage runner = stage := Function.update_self _ _ _
  have step : Step crates raw target (world.enter runner stage)
      ((world.enter runner stage).enter runner next) := by
    refine Step.moves alive ?_
    rw [here]
    exact moves
  rw [enter_enter] at step
  exact runs.step step (createsAlone_refl _)

/-- The world in the middle of a write. -/
def World.during (world : World crates.toWitnessCrates ι) (runner : Runner ι)
    (stage : Stage crates.toWitnessCrates) (contents : List UInt8) (disk : Directory)
    (phase : Phase) : World crates.toWitnessCrates ι where
  writers := ⟨disk, Function.update world.writers.calls runner (some ⟨contents, phase⟩),
    contents :: world.writers.begun⟩
  etag := world.etag
  stage := Function.update world.stage runner stage
  memory := world.memory
  foreign := replaced runner phase world.foreign

theorem not_returned {contents : List UInt8} {disk next : Directory} {phase later : Phase}
    (step : WriteStep contents (disk, phase) (next, later)) (result : Except FileError Unit) :
    phase ≠ .returned result := by
  intro same
  subst same
  cases step

theorem replaced_eq {phase : Phase} {foreign : Bool} (under : phase ≠ .returned (.ok ())) :
    replaced runner phase foreign = foreign := by
  cases phase with
  | called | writing | synced | cleaning => rfl
  | returned result =>
      cases result with
      | error e => rfl
      | ok done => exact absurd rfl under

theorem during_call {stage : Stage crates.toWitnessCrates} {contents : List UInt8}
    {next : Directory} {phase : Phase} (quiet : ∀ other, world.writers.calls other = none)
    {other : Runner ι} {call : WriteCall}
    (held : (world.during runner stage contents next phase).writers.calls other = some call) :
    call = ⟨contents, phase⟩ := by
  by_cases same : other = runner
  · subst same
    have called : (world.during other stage contents next phase).writers.calls other =
        some ⟨contents, phase⟩ := Function.update_self _ _ _
    exact Option.some.inj (held.symm.trans called)
  · have free : (world.during runner stage contents next phase).writers.calls other =
        world.writers.calls other := Function.update_of_ne same _ _
    cases (free.trans (quiet other)).symm.trans held

theorem during_alone {stage : Stage crates.toWitnessCrates} {contents : List UInt8}
    {next : Directory} {phase : Phase} (quiet : ∀ other, world.writers.calls other = none)
    (after : Writers (Runner ι)) :
    CreatesAlone (world.during runner stage contents next phase).writers after := by
  intro i creates j call inode held holds
  obtain ⟨first, inode', creating, -⟩ := creates
  rw [during_call quiet held, ← during_call quiet creating] at holds
  cases holds

theorem Runs.write {stage : Stage crates.toWitnessCrates} {contents : List UInt8}
    {before next : Directory} {phase later : Phase}
    (quiet : ∀ other, world.writers.calls other = none)
    (runs : Runs crates raw target disk etag (world.during runner stage contents before phase))
    (step : WriteStep contents (before, phase) (next, later)) :
    Runs crates raw target disk etag (world.during runner stage contents next later) := by
  have called : (world.during runner stage contents before phase).writers.calls runner =
      some ⟨contents, phase⟩ := Function.update_self _ _ _
  have result : world.during runner stage contents next later =
      { (world.during runner stage contents before phase).set runner next
          (some ⟨contents, later⟩) with
        foreign := replaced runner later
          (world.during runner stage contents before phase).foreign } := by
    simp only [World.during, World.set, Writers.set, Function.update_idem,
      replaced_eq (not_returned step _)]
  rw [result]
  exact runs.step (Step.writes called step) (during_alone quiet _)

theorem Runs.writes {stage : Stage crates.toWitnessCrates} {contents : List UInt8}
    {before : Directory} (quiet : ∀ other, world.writers.calls other = none)
    (runs : Runs crates raw target disk etag (world.during runner stage contents before .called))
    {last : Directory × Phase} (steps : WriteSteps contents (before, .called) last) :
    Runs crates raw target disk etag (world.during runner stage contents last.1 last.2) := by
  induction steps with
  | refl => exact runs
  | tail _ step ih => exact ih.write quiet step

theorem dirOf_saveEtag (disk : Directory) (etag : File) (newEtag : Option Text)
    (fault : Option EtagFault) :
    dirOf disk (saveEtag newEtag fault (dirOf disk etag)).etag =
      saveEtag newEtag fault (dirOf disk etag) := by
  unfold saveEtag
  split <;> rfl

/-- Where a pass has ended that nothing came between. -/
structure Ended (world after : World crates.toWitnessCrates ι) (runner : Runner ι)
    (result : Except SyncError (SyncReport crates.toWitnessCrates)) (dir : StateDir) : Prop where
  stage : after.stage = Function.update world.stage runner (.ended result)
  dir : dirOf after.writers.disk after.etag = dir
  calls : ∀ other, after.writers.calls other = none
  memory : after.memory = world.memory
  foreign : after.foreign = match result with
    | .ok report => if report.outcome = .updated then runner ≠ .poller else world.foreign
    | .error _ => world.foreign

theorem Runs.save {outcome : SyncOutcome} {logs : List (LogConfig crates.toWitnessCrates)}
    {newEtag : Option Text}
    (runs : Runs crates raw target disk etag (world.enter runner (.caching outcome logs newEtag)))
    (fault : Option EtagFault) :
    Runs crates raw target disk etag
      { world.enter runner (.ended (.ok ⟨outcome, some logs⟩)) with
        etag := (saveEtag newEtag fault (dirOf world.writers.disk world.etag)).etag } := by
  have here : (world.enter runner (.caching outcome logs newEtag)).stage runner =
      .caching outcome logs newEtag := Function.update_self _ _ _
  have step : Step crates raw target (world.enter runner (.caching outcome logs newEtag)) _ :=
    .saves fault here
  rw [enter_enter] at step
  exact runs.step step (createsAlone_refl _)

theorem Runs.asks (runs : Runs crates raw target disk etag world)
    (idle : world.stage runner = .idle) (alive : runner = .poller → world.memory.isSome = true) :
    Runs crates raw target disk etag
      (world.enter runner (.asking (cachedEtag (dirOf world.writers.disk world.etag)))) := by
  rw [← enter_here idle] at runs
  have asked := (runs.move alive .check).move alive .ask
  have same : (if world.managed.isSome then readEtag world.etag else none) =
      cachedEtag (dirOf world.writers.disk world.etag) := by
    unfold cachedEtag
    cases held : world.managed with
    | none => exact (if_pos held).symm
    | some bytes =>
        have present : ¬ (dirOf world.writers.disk world.etag).managed = none := by
          intro absent
          cases held.symm.trans absent
        exact (if_neg present).symm
  rwa [same] at asked

/-- The end of a pass that finds the managed file as it would have written it. -/
theorem Runs.same {logs : List (LogConfig crates.toWitnessCrates)} {newEtag : Option Text}
    (validated : Runs crates raw target disk etag (world.enter runner (.validated logs newEtag)))
    (quiet : ∀ other, world.writers.calls other = none)
    (alive : runner = .poller → world.memory.isSome = true)
    (plan : compared crates target logs newEtag world.managed = .ok (.unchanged logs newEtag))
    (fault : Option EtagFault) :
    ∃ after, Runs crates raw target disk etag after ∧
      Ended world after runner (.ok ⟨.unchanged, some logs⟩)
        (saveEtag newEtag fault (dirOf world.writers.disk world.etag)) := by
  refine ⟨_, (validated.move alive (.same plan)).save fault, rfl, ?_, quiet, rfl, rfl⟩
  exact dirOf_saveEtag world.writers.disk world.etag newEtag fault

/-- The write of a pass that nothing comes between, up to its end. -/
theorem Runs.rewrites (rest : disk.AtRest) (runs : Runs crates raw target disk etag world)
    (quiet : ∀ other, world.writers.calls other = none)
    {logs : List (LogConfig crates.toWitnessCrates)} {newEtag : Option Text}
    {contents : List UInt8}
    (validated : Runs crates raw target disk etag (world.enter runner (.validated logs newEtag)))
    (plan : compared crates target logs newEtag world.managed =
      .ok (.rewrite logs contents newEtag)) (faults : Faults) :
    ∃ after, Runs crates raw target disk etag after ∧
      match writeAtomic contents faults (dirOf world.writers.disk world.etag) with
      | (.error e, dir) => Ended world after runner (.error (.io target.managedPath e)) dir
      | (.ok (), dir) => Ended world after runner (.ok ⟨.updated, some logs⟩)
          (saveEtag newEtag faults.etag dir) := by
  have here : (world.enter runner (.validated logs newEtag)).stage runner =
      .validated logs newEtag := Function.update_self _ _ _
  have begins : Step crates raw target (world.enter runner (.validated logs newEtag)) _ :=
    .begins here plan
  rw [enter_enter] at begins
  have begun : Runs crates raw target disk etag
      (world.during runner (.writing logs newEtag) contents world.writers.disk .called) := by
    apply validated.step begins
    apply createsAlone_of_idle
    intro j call inode held
    cases (quiet j).symm.trans held
  obtain ⟨last, steps, left⟩ :=
    writeAtomic_steps (runs.guarded rest).sane contents faults world.etag
  rcases attempted : writeAtomic contents faults (dirOf world.writers.disk world.etag) with
    ⟨result, dir⟩
  rw [attempted] at steps left
  have wrote := begun.writes quiet steps
  have writing : (world.during runner (.writing logs newEtag) contents last
      (.returned result)).stage runner = .writing logs newEtag := Function.update_self _ _ _
  have called : (world.during runner (.writing logs newEtag) contents last
      (.returned result)).writers.calls runner = some ⟨contents, .returned result⟩ :=
    Function.update_self _ _ _
  have free : ∀ other, Function.update (Function.update world.writers.calls runner
      (some ⟨contents, .returned result⟩)) runner none other = none := by
    intro other
    by_cases same : other = runner
    · subst same
      exact Function.update_self _ _ _
    · rw [Function.update_of_ne same, Function.update_of_ne same]
      exact quiet other
  cases result with
  | error e =>
      refine ⟨_, wrote.step (Step.writeFails writing called) (during_alone quiet _), ?_⟩
      exact
        { stage := Function.update_idem _ _ _
          dir := left
          calls := free
          memory := rfl
          foreign := rfl }
  | ok done =>
      have saved := (wrote.step (Step.written writing called) (during_alone quiet _)).save
        faults.etag
      refine ⟨_, saved, ?_⟩
      exact
        { stage := Function.update_idem _ _ _
          dir := by
            dsimp only at left
            rw [← left]
            exact dirOf_saveEtag last world.etag newEtag faults.etag
          calls := free
          memory := rfl
          foreign := rfl }

/-- A pass that nothing comes between is `syncFeed`. -/
theorem pass_alone (rest : disk.AtRest) (runs : Runs crates raw target disk etag world)
    (quiet : ∀ other, world.writers.calls other = none) (idle : world.stage runner = .idle)
    (alive : runner = .poller → world.memory.isSome = true) {client : HttpClient}
    (checks : client.ChecksUrls) (faults : Faults) :
    ∃ after, Runs crates raw target disk etag after ∧
      Ended world after runner
        (syncFeed crates target client faults (dirOf world.writers.disk world.etag)).1
        (syncFeed crates target client faults (dirOf world.writers.disk world.etag)).2 := by
  have asks := runs.asks idle alive
  have stays : ∀ {result : Except SyncError (SyncReport crates.toWitnessCrates)},
      (∀ report, result = .ok report → report.outcome ≠ .updated) →
      Ended world (world.enter runner (.ended result)) runner result
        (dirOf world.writers.disk world.etag) := by
    intro result kept
    refine ⟨rfl, rfl, quiet, rfl, ?_⟩
    cases result with
    | error e => rfl
    | ok report => exact (if_neg (kept report rfl)).symm
  have plan := planSync_eq crates target client (dirOf world.writers.disk world.etag)
  cases answered : received crates
      (client ⟨target.feedUrl, cachedEtag (dirOf world.writers.disk world.etag)⟩) with
  | error e =>
      rw [answered] at plan
      refine ⟨_, asks.move alive (.fails answered), ?_⟩
      simp only [syncFeed, plan]
      exact stays fun report same => by cases same
  | ok response =>
      cases response with
      | none =>
          rw [answered] at plan
          refine ⟨_, asks.move alive (.notModified answered), ?_⟩
          simp only [syncFeed, plan]
          exact stays fun report same => by
            cases same
            exact SyncOutcome.noConfusion
      | some response =>
          obtain ⟨logs, newEtag⟩ := response
          rw [answered] at plan
          have validated := asks.move alive (.validates checks answered)
          cases decided : compared crates target logs newEtag world.managed with
          | error e =>
              refine ⟨_, validated.move alive (.refuses decided), ?_⟩
              have refused := plan.trans decided
              simp only [syncFeed, refused]
              exact stays fun report same => by cases same
          | ok planned =>
              have found := plan.trans decided
              rcases compared_ok decided with same | ⟨text, -, same⟩
              · subst same
                obtain ⟨after, last, ended⟩ := validated.same quiet alive decided faults.etag
                refine ⟨after, last, ?_⟩
                simp only [syncFeed, found]
                exact ended
              · subst same
                obtain ⟨after, last, ended⟩ := runs.rewrites rest quiet validated decided faults
                refine ⟨after, last, ?_⟩
                simp only [syncFeed, found]
                revert ended
                rcases writeAtomic (Utf8.encode text) faults
                  (dirOf world.writers.disk world.etag) with ⟨result, dir⟩
                cases result with
                | error e => exact id
                | ok done => exact id

/-- A poll that nothing comes between is `pollOnce`. -/
theorem poll_alone (rest : disk.AtRest) (runs : Runs crates raw target disk etag world)
    (quiet : ∀ other, world.writers.calls other = none) (idle : world.stage .poller = .idle)
    {witness : Witness crates.toWitnessCrates} (running : world.memory = some witness)
    {client : HttpClient} (checks : client.ChecksUrls) (faults : Faults) :
    ∃ after, Runs crates raw target disk etag after ∧
      after.memory = some (pollOnce crates target client faults witness
        (dirOf world.writers.disk world.etag)).1 ∧
      dirOf after.writers.disk after.etag = (pollOnce crates target client faults witness
        (dirOf world.writers.disk world.etag)).2 ∧ after.stage = world.stage := by
  have alive : world.memory.isSome = true := Option.isSome_iff_exists.mpr ⟨witness, running⟩
  obtain ⟨before, passes, ended⟩ := pass_alone rest runs quiet idle (fun _ => alive) checks faults
  have stage : before.stage .poller = .ended (syncFeed crates target client faults
      (dirOf world.writers.disk world.etag)).1 := by
    rw [ended.stage]
    exact Function.update_self _ _ _
  refine ⟨_, passes.step (Step.finishes stage) (createsAlone_refl _), ?_, ?_, ?_⟩
  · rw [pollOnce_eq, World.finish, ended.memory, running]
    rfl
  · rw [pollOnce_eq]
    exact ended.dir
  · rw [World.finish, World.enter, ended.stage]
    dsimp only
    rw [Function.update_idem, ← idle, Function.update_eq_self]

end Alone

end MosskeysWitness.Interleaving
