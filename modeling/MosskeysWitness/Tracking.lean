import MosskeysWitness.Interleaving

/-! The allowlist in memory against the managed file, over every interleaving. -/

namespace MosskeysWitness.Interleaving

open AtomicWrite

section Invariant

variable {crates : SyncCrates} {ι : Type} [DecidableEq ι] {raw : RawConfig} {target : FeedTarget}
  {manual : List (LogConfig crates.toWitnessCrates)} {world after : World crates.toWitnessCrates ι}

/-- The allowlist in memory is the manual stanzas over the entries of the managed file. -/
def Tracks (crates : SyncCrates) (target : FeedTarget)
    (manual : List (LogConfig crates.toWitnessCrates))
    (witness : Witness crates.toWitnessCrates) (managed : File) : Prop :=
  ∃ entries, loadManagedEntries crates.toConfigCrates target.managedPath managed = .ok entries ∧
    witness.logs = (Allowlist.collect manual).merge (entries.getD [])

/-- The entries a pass has put in the managed file and not yet handed over. -/
def handover {crates : WitnessCrates} :
    Stage crates → Option WriteCall → Option (List (LogConfig crates))
  | .writing logs _, some ⟨_, .returned (.ok ())⟩ => some logs
  | .caching .updated logs _, _ => some logs
  | .ended (.ok ⟨.updated, some logs⟩), _ => some logs
  | _, _ => none

abbrev World.handover {crates : WitnessCrates} (world : World crates ι) :
    Option (List (LogConfig crates)) :=
  Interleaving.handover (world.stage .poller) (world.writers.calls .poller)

/-- While no one-shot run has replaced the managed file, it has what the poller is about to hand
over, or else what is in memory. -/
structure Coherent (target : FeedTarget) (manual : List (LogConfig crates.toWitnessCrates))
    (world : World crates.toWitnessCrates ι) (witness : Witness crates.toWitnessCrates) : Prop where
  kept : witness.manualLogs = .collect manual
  tracks : world.foreign = false → world.handover = none →
    Tracks crates target manual witness world.managed
  pending : world.foreign = false → ∀ logs, world.handover = some logs →
    loadManagedEntries crates.toConfigCrates target.managedPath world.managed = .ok (some logs)

/-- What the phase of a pass carries is valid, and the poller is in one only while the witness
runs. -/
def Fits (target : FeedTarget) (memory : Option (Witness crates.toWitnessCrates))
    (runner : Runner ι) (call : Option WriteCall) : Stage crates.toWitnessCrates → Prop
  | .idle => True
  | .validated logs _ => (runner = .poller → memory.isSome = true) ∧ Distinct logs ∧
      Clean target.feedUrl
  | .writing logs _ => (runner = .poller → memory.isSome = true) ∧ ∀ held, call = some held →
      loadManagedEntries crates.toConfigCrates target.managedPath (some held.contents) =
        .ok (some logs)
  | .ended (.ok report) => (runner = .poller → memory.isSome = true) ∧
      (report.outcome = .updated → ∃ logs, report.entries = some logs)
  | _ => runner = .poller → memory.isSome = true

structure Inv (target : FeedTarget) (manual : List (LogConfig crates.toWitnessCrates))
    (world : World crates.toWitnessCrates ι) : Prop where
  fits : ∀ runner, Fits target world.memory runner (world.writers.calls runner) (world.stage runner)
  memory : ∀ witness, world.memory = some witness → Coherent target manual world witness

omit [DecidableEq ι] in
theorem Coherent.keep {witness : Witness crates.toWitnessCrates}
    (coherent : Coherent target manual world witness)
    (same : after.foreign = false → world.foreign = false ∧ after.managed = world.managed)
    (unchanged : after.handover = world.handover) : Coherent target manual after witness := by
  constructor
  · exact coherent.kept
  · intro own none
    rw [(same own).2]
    exact coherent.tracks (same own).1 (unchanged.symm.trans none)
  · intro own logs some_
    rw [(same own).2]
    exact coherent.pending (same own).1 logs (unchanged.symm.trans some_)

section Fits

variable {memory later : Option (Witness crates.toWitnessCrates)} {runner : Runner ι}
  {call : Option WriteCall} {stage : Stage crates.toWitnessCrates}

omit [DecidableEq ι] in
theorem Fits.alive (fits : Fits target memory runner call stage) (busy : stage ≠ .idle) :
    runner = .poller → memory.isSome = true := by
  cases stage with
  | idle => exact absurd rfl busy
  | checked | asking | caching => exact fits
  | validated | writing => exact fits.1
  | ended result =>
      cases result with
      | error e => exact fits
      | ok report => exact fits.1

omit [DecidableEq ι] in
theorem Fits.transfer (fits : Fits target memory runner call stage)
    (alive : (runner = .poller → memory.isSome = true) → runner = .poller → later.isSome = true) :
    Fits target later runner call stage := by
  cases stage with
  | idle => trivial
  | checked | asking | caching => exact alive fits
  | validated | writing => exact ⟨alive fits.1, fits.2⟩
  | ended result =>
      cases result with
      | error e => exact alive fits
      | ok report => exact ⟨alive fits.1, fits.2⟩

end Fits

omit [DecidableEq ι] in
theorem Inv.idle (inv : Inv target manual world) (down : world.memory = none) :
    world.stage .poller = .idle := by
  by_contra busy
  have alive := (inv.fits .poller).alive busy rfl
  rw [down] at alive
  cases alive

theorem Moves.handover {managed etag : File} {stage next : Stage crates.toWitnessCrates}
    (moves : Moves crates target managed etag stage next) (call : Option WriteCall) :
    Interleaving.handover stage call = none ∧ Interleaving.handover next call = none := by
  cases moves <;> exact ⟨rfl, rfl⟩

theorem handover_unreturned {crates : WitnessCrates} (stage : Stage crates) {call : WriteCall}
    (under : call.phase ≠ .returned (.ok ()))
    (writing : ∃ logs newEtag, stage = .writing logs newEtag) :
    Interleaving.handover stage (some call) = none := by
  obtain ⟨logs, newEtag, rfl⟩ := writing
  rcases call with ⟨contents, phase⟩
  cases phase with
  | called | writing | synced | cleaning => rfl
  | returned result =>
      cases result with
      | error e => rfl
      | ok done => exact absurd rfl under

omit [DecidableEq ι] in
theorem writes_frame {disk next : Directory} {runner : Runner ι} {call : WriteCall} {phase : Phase}
    (guarded : Guarded disk world.writers) (called : world.writers.calls runner = some call)
    (step : WriteStep call.contents (world.writers.disk, call.phase) (next, phase))
    (under : phase ≠ .returned (.ok ())) : next.file .managed = world.managed :=
  step.frame guarded.sane (fun inode holds => (guarded.own runner call inode called holds).1) under

theorem elsewhere {α : Type} (slots : Runner ι → α) (i : ι) (slot : α) :
    Function.update slots (.oneShot i) slot .poller = slots .poller := by
  have apart : Runner.poller ≠ Runner.oneShot i := fun same => by cases same
  exact Function.update_of_ne apart slot slots

theorem stage_here {crates : WitnessCrates} {world : World crates ι} {runner : Runner ι}
    (stage : Stage crates) : (world.enter runner stage).stage runner = stage :=
  Function.update_self _ _ _

theorem call_here {crates : WitnessCrates} {world : World crates ι} {runner : Runner ι}
    {disk : Directory} (call : Option WriteCall) :
    (world.set runner disk call).writers.calls runner = call := Function.update_self _ _ _

theorem Coherent.writes {disk next : Directory} {runner : Runner ι} {call : WriteCall}
    {phase : Phase} {witness : Witness crates.toWitnessCrates}
    (coherent : Coherent target manual world witness) (guarded : Guarded disk world.writers)
    (calling : Calling world) (inv : Inv target manual world)
    (called : world.writers.calls runner = some call)
    (step : WriteStep call.contents (world.writers.disk, call.phase) (next, phase)) :
    Coherent target manual { world.set runner next (some ⟨call.contents, phase⟩) with
      foreign := replaced runner phase world.foreign } witness := by
  by_cases renamed : phase = .returned (.ok ())
  · subst renamed
    cases runner with
    | poller =>
        obtain ⟨logs, newEtag, writing⟩ := calling .poller call called
        have managed : next.file .managed = some call.contents :=
          (step.sane guarded.sane (guarded.passed _ call called)
            (fun inode holds => guarded.own _ call inode called holds)).2.2 rfl
        have handed : handover (world.stage .poller) (some ⟨call.contents, .returned (.ok ())⟩) =
            some logs := by rw [writing, handover]
        refine ⟨coherent.kept, ?_, ?_⟩
        · intro _ none
          rw [World.handover, call_here] at none
          cases handed.symm.trans none
        · intro _ others same
          rw [World.handover, call_here] at same
          cases handed.symm.trans same
          rw [World.managed]
          have fits := inv.fits .poller
          rw [writing] at fits
          exact (congrArg _ managed).trans (fits.2 call called)
    | oneShot i =>
        refine ⟨coherent.kept, ?_, ?_⟩
        · intro own
          cases own
        · intro own
          cases own
  · have managed := writes_frame guarded called step renamed
    apply coherent.keep
    · intro own
      exact ⟨(replaced_eq renamed).symm.trans own, managed⟩
    · cases runner with
      | poller =>
          have writing := calling .poller call called
          rw [World.handover, call_here, World.handover, called]
          rw [handover_unreturned _ (not_returned step _) writing]
          exact handover_unreturned _ renamed writing
      | oneShot i =>
          exact congrArg (handover _)
            (elsewhere world.writers.calls i (some ⟨call.contents, phase⟩))

theorem handover_elsewhere {crates : WitnessCrates} {world : World crates ι} {i : ι}
    (stage : Stage crates) : (world.enter (.oneShot i) stage).handover = world.handover :=
  congrArg (fun held => handover held _) (elsewhere world.stage i stage)

theorem World.finish_handover (world : World crates.toWitnessCrates ι)
    (result : Except SyncError (SyncReport crates.toWitnessCrates)) :
    (world.finish crates result).handover = none := by
  have idle := Function.update_self Runner.poller .idle world.stage
  exact congrArg (fun held => Interleaving.handover held (world.writers.calls .poller)) idle

theorem Coherent.finishes {witness : Witness crates.toWitnessCrates}
    {result : Except SyncError (SyncReport crates.toWitnessCrates)}
    (coherent : Coherent target manual world witness) (inv : Inv target manual world)
    (ended : world.stage .poller = .ended result) :
    Coherent target manual (world.finish crates result) (applied crates result witness) := by
  have idle := world.finish_handover result
  have before : world.handover = handover (.ended result) (world.writers.calls .poller) := by
    rw [World.handover, ended]
  refine ⟨?_, ?_, ?_⟩
  · cases result with
    | error e => exact coherent.kept
    | ok report =>
        unfold applied
        dsimp only
        split_ifs
        · cases report.entries <;> exact coherent.kept
        · exact coherent.kept
  · intro own _
    cases result with
    | error e => exact coherent.tracks own before
    | ok report =>
        by_cases updated : report.outcome = .updated
        · have fits := inv.fits .poller
          rw [ended] at fits
          obtain ⟨logs, entries⟩ := fits.2 updated
          have handed : world.handover = some logs := by
            rw [before]
            rcases report with ⟨outcome, held⟩
            cases updated
            cases entries
            rfl
          refine ⟨some logs, coherent.pending own logs handed, ?_⟩
          simp only [applied, if_pos updated, entries, Option.getD_some, ← coherent.kept]
          rfl
        · have unchanged : applied crates (.ok report) witness = witness := if_neg updated
          rw [unchanged]
          apply coherent.tracks own
          rw [before]
          rcases report with ⟨outcome, held⟩
          cases outcome with
          | unchanged => rfl
          | updated => exact absurd rfl updated
  · intro _ logs some_
    cases idle.symm.trans some_

theorem Step.coherent {disk : Directory} (step : Step crates raw target world after)
    (guarded : Guarded disk world.writers) (calling : Calling world)
    {bare : LoadedConfig crates.toWitnessCrates}
    (alone : validate crates.toConfigCrates raw none = .ok bare)
    (inv : Inv target bare.manualLogs world) (witness : Witness crates.toWitnessCrates)
    (running : after.memory = some witness) : Coherent target bare.manualLogs after witness := by
  cases step with
  | moves alive moves =>
      rename_i runner stage
      refine (inv.memory witness running).keep (fun own => ⟨own, rfl⟩) ?_
      cases runner with
      | poller =>
          obtain ⟨before, later⟩ := moves.handover (world.writers.calls .poller)
          rw [World.handover, stage_here, World.handover, before]
          exact later
      | oneShot i => exact handover_elsewhere stage
  | begins validated compared =>
      rename_i runner logs newEtag contents
      refine (inv.memory witness running).keep (fun own => ⟨own, rfl⟩) ?_
      cases runner with
      | poller =>
          have before : world.handover = none := by
            rw [World.handover, validated]
            rfl
          have stage := Function.update_self Runner.poller (.writing logs newEtag) world.stage
          have call := Function.update_self Runner.poller (some ⟨contents, .called⟩)
            world.writers.calls
          exact (congrArg₂ handover stage call).trans before.symm
      | oneShot i =>
          exact congrArg₂ handover (elsewhere world.stage i (.writing logs newEtag))
            (elsewhere world.writers.calls i (some ⟨contents, .called⟩))
  | writes called step => exact (inv.memory witness running).writes guarded calling inv called step
  | written writing called =>
      rename_i runner logs newEtag contents
      refine (inv.memory witness running).keep (fun own => ⟨own, rfl⟩) ?_
      cases runner with
      | poller =>
          have before : world.handover = some logs := by
            rw [World.handover, writing, called]
            rfl
          have stage := Function.update_self Runner.poller (.caching .updated logs newEtag)
            world.stage
          have call := Function.update_self Runner.poller none world.writers.calls
          exact (congrArg₂ handover stage call).trans before.symm
      | oneShot i =>
          exact congrArg₂ handover (elsewhere world.stage i (.caching .updated logs newEtag))
            (elsewhere world.writers.calls i none)
  | writeFails writing called =>
      rename_i runner logs newEtag contents e
      refine (inv.memory witness running).keep (fun own => ⟨own, rfl⟩) ?_
      cases runner with
      | poller =>
          have before : world.handover = none := by
            rw [World.handover, writing, called]
            rfl
          have stage := Function.update_self Runner.poller
            (.ended (.error (.io target.managedPath e))) world.stage
          have call := Function.update_self Runner.poller none world.writers.calls
          exact (congrArg₂ handover stage call).trans before.symm
      | oneShot i =>
          exact congrArg₂ handover
            (elsewhere world.stage i (.ended (.error (.io target.managedPath e))))
            (elsewhere world.writers.calls i none)
  | tears count caching => exact (inv.memory witness running).keep (fun own => ⟨own, rfl⟩) rfl
  | saves fault caching =>
      rename_i runner outcome logs newEtag
      refine (inv.memory witness running).keep (fun own => ⟨own, rfl⟩) ?_
      cases runner with
      | poller =>
          have before : world.handover = handover (.caching outcome logs newEtag)
              (world.writers.calls .poller) := by
            rw [World.handover, caching]
          have stage := Function.update_self Runner.poller (.ended (.ok ⟨outcome, some logs⟩))
            world.stage
          refine (congrArg₂ handover stage rfl).trans (Eq.trans ?_ before.symm)
          cases outcome <;> rfl
      | oneShot i =>
          exact congrArg (fun held => handover held _)
            (elsewhere world.stage i (.ended (.ok ⟨outcome, some logs⟩)))
  | finishes ended =>
      obtain ⟨previous, held, same⟩ := Option.map_eq_some_iff.mp running
      subst same
      exact (inv.memory previous held).finishes inv ended
  | exits ended =>
      exact (inv.memory witness running).keep (fun own => ⟨own, rfl⟩) (handover_elsewhere _)
  | killed i =>
      refine (inv.memory witness running).keep (fun own => ⟨own, rfl⟩) ?_
      exact congrArg₂ handover (elsewhere world.stage i .idle)
        (elsewhere world.writers.calls i none)
  | stops => cases running
  | boots down boots =>
      cases running
      obtain ⟨entries, loaded, kept, merged, -⟩ := boots.logs alone
      obtain ⟨found, held, same⟩ := map_ok loaded
      have idle : world.handover = none := by
        rw [World.handover, inv.idle down]
        rfl
      refine ⟨kept, ?_, ?_⟩
      · intro _ _
        exact ⟨found, loadManagedEntries_path held _, by rw [merged, same]⟩
      · intro _ logs some_
        cases idle.symm.trans some_
  | powerLoss etag lost => cases running

theorem fits_update {memory : Option (Witness crates.toWitnessCrates)}
    {calls : Runner ι → Option WriteCall} {stage : Runner ι → Stage crates.toWitnessCrates}
    (fits : ∀ other, Fits target memory other (calls other) (stage other)) {runner : Runner ι}
    {call : Option WriteCall} {next : Stage crates.toWitnessCrates}
    (new : Fits target memory runner call next) :
    ∀ other, Fits target memory other (Function.update calls runner call other)
      (Function.update stage runner next other) := by
  intro other
  by_cases same : other = runner
  · subst same
    rw [Function.update_self, Function.update_self]
    exact new
  · rw [Function.update_of_ne same, Function.update_of_ne same]
    exact fits other

theorem fits_enter {memory : Option (Witness crates.toWitnessCrates)}
    {calls : Runner ι → Option WriteCall} {stage : Runner ι → Stage crates.toWitnessCrates}
    (fits : ∀ other, Fits target memory other (calls other) (stage other)) {runner : Runner ι}
    {next : Stage crates.toWitnessCrates} (new : Fits target memory runner (calls runner) next) :
    ∀ other, Fits target memory other (calls other) (Function.update stage runner next other) := by
  have updated := fits_update fits new
  rwa [Function.update_eq_self] at updated

theorem received_ok {answer : Except String HttpResponse}
    {logs : List (LogConfig crates.toWitnessCrates)} {newEtag : Option Text}
    (validated : received crates answer = .ok (some (logs, newEtag))) :
    (∃ response, answer = .ok response) ∧ ∃ body, parseFeed crates body = .ok logs := by
  unfold received at validated
  split at validated
  · cases validated
  · rename_i response
    split_ifs at validated
    · cases validated
    · split at validated
      · cases validated
      · rename_i body read
        split at validated
        · cases validated
        · rename_i parsed
          cases validated
          exact ⟨⟨response, rfl⟩, body, parsed⟩

omit [DecidableEq ι] in
theorem Moves.fits {managed etag : File} {stage next : Stage crates.toWitnessCrates}
    {memory : Option (Witness crates.toWitnessCrates)} {runner : Runner ι}
    (alive : runner = .poller → memory.isSome = true)
    (moves : Moves crates target managed etag stage next) (call : Option WriteCall) :
    Fits target memory runner call next := by
  cases moves with
  | validates checks received =>
      obtain ⟨⟨response, answered⟩, body, parsed⟩ := received_ok received
      obtain ⟨feed, set⟩ := parseFeed_ok parsed
      exact ⟨alive, set.distinct, checks _ _ answered⟩
  | notModified => exact ⟨alive, fun same => by cases same⟩
  | check | ask | fails | refuses | same => exact alive

theorem Step.fits (laws : crates.RoundTrips) (step : Step crates raw target world after)
    (calling : Calling world) (inv : Inv target manual world) :
    ∀ runner,
      Fits target after.memory runner (after.writers.calls runner) (after.stage runner) := by
  have busy : ∀ {runner stage}, world.stage runner = stage → stage ≠ .idle →
      runner = .poller → world.memory.isSome = true := by
    intro runner stage staged other
    exact (inv.fits runner).alive (staged ▸ other)
  cases step with
  | moves alive moves => exact fits_enter inv.fits (moves.fits alive _)
  | begins validated compared =>
      rename_i runner logs newEtag contents
      have fits := inv.fits runner
      rw [validated] at fits
      refine fits_update inv.fits ⟨fits.1, ?_⟩
      intro held passed
      cases passed
      rcases compared_ok compared with same | ⟨text, rendered, same⟩
      · cases same
      · cases same
        exact loads_rendered laws fits.2.1 fits.2.2 rendered target.managedPath
  | writes called step =>
      rename_i runner call next phase
      obtain ⟨logs, newEtag, writing⟩ := calling runner call called
      have fits := inv.fits runner
      rw [writing] at fits
      have new : Fits target world.memory runner (some ⟨call.contents, phase⟩)
          (world.stage runner) := by
        rw [writing]
        refine ⟨fits.1, ?_⟩
        intro held passed
        cases passed
        exact fits.2 call called
      have updated := fits_update inv.fits new
      rwa [Function.update_eq_self] at updated
  | written writing called => exact fits_update inv.fits (busy writing (fun same => by cases same))
  | writeFails writing called =>
      exact fits_update inv.fits (busy writing (fun same => by cases same))
  | tears count caching => exact inv.fits
  | saves fault caching =>
      exact fits_enter inv.fits ⟨busy caching (fun same => by cases same), fun _ => ⟨_, rfl⟩⟩
  | finishes ended =>
      have idle : ∀ other, Fits target world.memory other (world.writers.calls other)
          (Function.update world.stage .poller .idle other) := fits_enter inv.fits trivial
      intro runner
      apply (idle runner).transfer
      intro alive poller
      rw [World.finish, Option.isSome_map]
      exact alive poller
  | exits ended => exact fits_enter inv.fits trivial
  | killed i => exact fits_update inv.fits trivial
  | stops =>
      have idle : ∀ other, Fits target world.memory other
          (Function.update world.writers.calls .poller none other)
          (Function.update world.stage .poller .idle other) := fits_update inv.fits trivial
      intro runner
      cases runner with
      | poller =>
          have stage := Function.update_self Runner.poller .idle world.stage
          exact stage.symm ▸ trivial
      | oneShot i => exact (idle (.oneShot i)).transfer fun _ same => by cases same
  | boots down boots =>
      intro runner
      exact (inv.fits runner).transfer fun _ _ => rfl
  | powerLoss etag lost => exact fun _ => trivial

theorem Runs.inv (laws : crates.RoundTrips) {disk : Directory} {etag : File}
    (rest : disk.AtRest) {bare : LoadedConfig crates.toWitnessCrates}
    (alone : validate crates.toConfigCrates raw none = .ok bare)
    (runs : Runs crates raw target disk etag world) : Inv target bare.manualLogs world := by
  induction runs with
  | start =>
      refine ⟨fun _ => trivial, ?_⟩
      intro witness running
      cases running
  | step runs step _ ih =>
      exact ⟨step.fits laws runs.calling ih,
        step.coherent (runs.guarded rest) runs.calling alone ih⟩

end Invariant

/-- After a poll whose pass returned Ok, the allowlist in memory is the manual stanzas over the
entries of the managed file, unless a one-shot run has replaced the file since the witness last
loaded or replaced it. -/
theorem memory_tracks_file {crates : SyncCrates} {ι : Type} [DecidableEq ι]
    (laws : crates.RoundTrips) {raw : RawConfig} {bare : LoadedConfig crates.toWitnessCrates}
    (alone : validate crates.toConfigCrates raw none = .ok bare) {target : FeedTarget}
    {disk : Directory} (rest : disk.AtRest) {etag : File}
    {world : World crates.toWitnessCrates ι} (runs : Runs crates raw target disk etag world)
    {report : SyncReport crates.toWitnessCrates}
    (ended : world.stage .poller = .ended (.ok report)) (own : world.foreign = false) :
    ∃ witness, (world.finish crates (.ok report)).memory = some witness ∧
      Tracks crates target bare.manualLogs witness (world.finish crates (.ok report)).managed ∧
      ∀ entries, loadManagedEntries crates.toConfigCrates target.managedPath
          (world.finish crates (.ok report)).managed = .ok (some entries) →
        ∀ log ∈ entries, log.origin ∉ bare.manualLogs.map LogConfig.origin →
          witness.logs.vkeys.lookup log.origin = some log.vkeys := by
  have inv := runs.inv laws rest alone
  have alive : world.memory.isSome = true :=
    (inv.fits .poller).alive (ended ▸ fun same => by cases same) rfl
  obtain ⟨witness, running⟩ := Option.isSome_iff_exists.mp alive
  have coherent := (inv.memory witness running).finishes inv ended
  have tracks := coherent.tracks own (world.finish_handover _)
  refine ⟨_, congrArg (Option.map _) running, tracks, ?_⟩
  intro entries loaded log member unlisted
  obtain ⟨found, held, merged⟩ := tracks
  cases held.symm.trans loaded
  rw [merged, Allowlist.lookup_merge_of_not_mem (by rwa [Allowlist.mem_collect])]
  rw [Option.getD_some, Allowlist.lookup_collect_iff (loadManagedEntries_distinct loaded)]
  exact ⟨log, member, rfl, rfl⟩

section Runs

open Reference

def emptyDirectory : Directory := ⟨fun _ => [], fun _ => none, fun _ => true, 0, []⟩

theorem emptyDirectory_rests : emptyDirectory.AtRest := by
  constructor
  · rfl
  · intro name inode linked
    cases linked
  · intro inode linked
    cases linked
  · intro inode linked
    cases linked

def firstTarget : FeedTarget := ⟨feedUrl, "managed", "etag"⟩

def betaClient : HttpClient := feedClient none (feedBody [beta])

abbrev FirstRuns : World witnessCrates Unit → Prop :=
  Runs (syncCrates entries) rawConfig firstTarget emptyDirectory none

theorem first_start : ∃ (world : World witnessCrates Unit) (witness : Witness witnessCrates),
    FirstRuns world ∧ world.memory = some witness ∧ world.foreign = false ∧
      (∀ runner, world.stage runner = .idle) ∧ (∀ runner, world.writers.calls runner = none) ∧
      dirOf world.writers.disk world.etag = ⟨none, none, none⟩ ∧
      witness.logs.vkeys.lookup beta.origin = none := by
  obtain ⟨booted, started, -⟩ := starts bareConfig.toConfig (List.cons_ne_nil _ _)
  have boots : Boots (syncCrates entries).toConfigCrates rawConfig none booted :=
    ⟨_, bareConfig, _, _, _, _, _, rawConfig_accepted, started⟩
  obtain ⟨listed, loaded, -, merged, -⟩ := boots.logs rawConfig_accepted
  have begun : FirstRuns ⟨⟨emptyDirectory, fun _ => none, []⟩, none, fun _ => .idle, none, false⟩ :=
    .start
  refine ⟨_, booted, begun.step (Step.boots rfl boots) (createsAlone_refl _), rfl, rfl,
    fun _ => rfl, fun _ => rfl, rfl, ?_⟩
  cases loaded
  have unlisted : beta.origin ∉ (Allowlist.collect bareConfig.manualLogs).vkeys := by
    rw [Allowlist.mem_collect]
    decide
  rw [merged, Allowlist.lookup_merge_of_not_mem unlisted]
  rfl

theorem beta_parsed : parseFeed (syncCrates entries) (feedBody [beta]) = .ok [beta.log] :=
  parseFeed_feedBody entries (List.cons_ne_nil _ _) (by decide)

theorem first_pass : ∃ after, syncFeed (syncCrates entries) firstTarget betaClient .none
    ⟨none, none, none⟩ = (.ok ⟨.updated, some [beta.log]⟩, after) ∧
    loadManagedEntries (syncCrates entries).toConfigCrates firstTarget.managedPath after.managed =
      .ok (some [beta.log]) := by
  have laws := syncCrates_roundTrips entries
  have answers := feedClient_answers (feedBody [beta]) none
  have clean : Clean firstTarget.feedUrl := by
    change Clean feedUrl
    decide
  obtain ⟨after, passed⟩ :=
    pass_rewrites laws firstTarget ⟨none, none, none⟩ answers beta_parsed rfl (by simp)
  exact ⟨after, passed, loads_after laws clean passed rfl⟩

theorem beta_received (ifNoneMatch : Option Text) :
    received (syncCrates entries) (betaClient ⟨firstTarget.feedUrl, ifNoneMatch⟩) =
      .ok (some ([beta.log], none)) := by
  have clean : Clean (HttpRequest.mk firstTarget.feedUrl ifNoneMatch).url := by
    change Clean feedUrl
    decide
  have answered : betaClient ⟨firstTarget.feedUrl, ifNoneMatch⟩ =
      .ok ⟨200, none, fun _ => .ok (feedBody [beta])⟩ := by
    rw [betaClient, feedClient, if_pos clean]
    rfl
  simp only [received, answered, beta_parsed]
  rfl

theorem poll_unchanged {world : World witnessCrates Unit} (runs : FirstRuns world)
    (quiet : ∀ runner, world.writers.calls runner = none)
    (waiting : world.stage .poller = .idle) (alive : world.memory.isSome = true)
    (held : loadManagedEntries (syncCrates entries).toConfigCrates firstTarget.managedPath
      world.managed = .ok (some [beta.log])) :
    ∃ polled dir, FirstRuns polled ∧
      Ended world polled .poller (.ok ⟨.unchanged, some [beta.log]⟩) dir ∧
      dir.managed = world.managed := by
  have checks : betaClient.ChecksUrls := feedClient_checksUrls none (feedBody [beta])
  have answers : Answers betaClient ⟨firstTarget.feedUrl, _⟩ (feedBody [beta]) :=
    feedClient_answers (feedBody [beta]) (cachedEtag (dirOf world.writers.disk world.etag))
  obtain ⟨last, unchanged, same⟩ := pass_unchanged answers beta_parsed held .none
  obtain ⟨polled, later, ended⟩ :=
    pass_alone emptyDirectory_rests runs quiet waiting (fun _ => alive) checks .none
  rw [unchanged] at ended
  exact ⟨polled, last, later, ended, same⟩

/-- A one-shot run asks the feed, the first poll of a new witness installs what it serves, the run
finds the file as it would have written it, and a second poll finds it unchanged. -/
theorem overlapped_polls_track :
    ∃ (world : World witnessCrates Unit) (witness : Witness witnessCrates),
    FirstRuns world ∧ world.stage (.oneShot ()) = .ended (.ok ⟨.unchanged, some [beta.log]⟩) ∧
      (world.finish (syncCrates entries) (.ok ⟨.unchanged, some [beta.log]⟩)).memory =
        some witness ∧
      witness.logs.vkeys.lookup beta.origin = some [beta.hybrid, beta.ed25519] := by
  have laws := syncCrates_roundTrips entries
  obtain ⟨world, booted, runs, running, own, idle, quiet, dir, -⟩ := first_start
  obtain ⟨left, passed, loaded⟩ := first_pass
  have checks : betaClient.ChecksUrls := feedClient_checksUrls none (feedBody [beta])
  have apart : Runner.oneShot () ≠ Runner.poller := nofun
  have alive : world.memory.isSome = true := Option.isSome_iff_exists.mpr ⟨booted, running⟩
  -- the one-shot run asks
  let ifNoneMatch := cachedEtag (dirOf world.writers.disk world.etag)
  have asked : FirstRuns (world.enter (.oneShot ()) (.asking ifNoneMatch)) :=
    runs.asks (idle (.oneShot ())) (fun same => absurd same apart)
  have waiting : (world.enter (.oneShot ()) (.asking ifNoneMatch)).stage .poller = .idle :=
    (elsewhere world.stage () (.asking ifNoneMatch)).trans (idle .poller)
  -- the first poll
  obtain ⟨before, later, ended⟩ := pass_alone emptyDirectory_rests asked quiet waiting
    (fun _ => alive) checks .none
  have begun : dirOf (world.enter (.oneShot ()) (.asking ifNoneMatch)).writers.disk
      (world.enter (.oneShot ()) (.asking ifNoneMatch)).etag = ⟨none, none, none⟩ := dir
  rw [begun, passed] at ended
  have stage : before.stage .poller = .ended (.ok ⟨.updated, some [beta.log]⟩) := by
    rw [ended.stage]
    exact Function.update_self _ _ _
  let polled := before.finish (syncCrates entries) (.ok ⟨.updated, some [beta.log]⟩)
  have polls : FirstRuns polled := later.step (Step.finishes stage) (createsAlone_refl _)
  have stages : polled.stage = Function.update before.stage .poller .idle := rfl
  have asking : polled.stage (.oneShot ()) = .asking ifNoneMatch := by
    have entered := Function.update_self (Runner.oneShot ()) (.asking ifNoneMatch) world.stage
    rw [stages, Function.update_of_ne apart, ended.stage, Function.update_of_ne apart]
    exact entered
  have resting : polled.stage .poller = .idle := by
    rw [stages, Function.update_self]
  have alive' : polled.memory.isSome = true := by
    change (before.memory.map _).isSome = true
    rw [ended.memory, Option.isSome_map]
    exact alive
  have held : loadManagedEntries (syncCrates entries).toConfigCrates firstTarget.managedPath
      polled.managed = .ok (some [beta.log]) := by
    have file : polled.managed = left.managed := congrArg StateDir.managed ended.dir
    rw [file]
    exact loaded
  -- the one-shot run has its answer and compares
  have same : compared (syncCrates entries) firstTarget [beta.log] none polled.managed =
      .ok (.unchanged [beta.log] none) := by
    rw [compared, held]
    exact if_pos (by simp)
  rw [← enter_here asking] at polls
  have validated := polls.move (fun same => absurd same apart)
    (.validates checks (beta_received ifNoneMatch))
  obtain ⟨shot, afterShot, endedShot⟩ := validated.same ended.calls
    (fun same => absurd same apart) same none
  have kept : shot.managed = polled.managed := congrArg StateDir.managed endedShot.dir
  rw [← kept] at held
  -- the second poll
  have restingShot : shot.stage .poller = .idle := by
    rw [endedShot.stage]
    exact (elsewhere polled.stage () _).trans resting
  obtain ⟨last, dirAfter, again, endedAgain, file⟩ :=
    poll_unchanged afterShot endedShot.calls restingShot (endedShot.memory ▸ alive') held
  have stageAgain : last.stage .poller = .ended (.ok ⟨.unchanged, some [beta.log]⟩) := by
    rw [endedAgain.stage]
    exact Function.update_self _ _ _
  have stillOwn : last.foreign = false :=
    (endedAgain.foreign.trans endedShot.foreign).trans ended.foreign
  obtain ⟨witness, found, -, listed⟩ := memory_tracks_file laws rawConfig_accepted
    emptyDirectory_rests again stageAgain stillOwn
  have lastManaged : (last.finish (syncCrates entries)
      (.ok ⟨.unchanged, some [beta.log]⟩)).managed = dirAfter.managed :=
    congrArg StateDir.managed endedAgain.dir
  rw [lastManaged, file] at listed
  refine ⟨last, witness, again, ?_, found, ?_⟩
  · rw [endedAgain.stage, Function.update_of_ne apart, endedShot.stage]
    exact Function.update_self _ _ _
  · exact listed [beta.log] held beta.log (List.mem_singleton_self _) (by decide)

/-- A one-shot run installs the feed's log, and the poll after it finds the file unchanged: the log
is not in memory. -/
theorem one_shot_leaves_memory_behind :
    ∃ (world after : World witnessCrates Unit) (witness : Witness witnessCrates),
    FirstRuns world ∧ world.stage .poller = .ended (.ok ⟨.unchanged, some [beta.log]⟩) ∧
      after = world.finish (syncCrates entries) (.ok ⟨.unchanged, some [beta.log]⟩) ∧
      after.memory = some witness ∧
      loadManagedEntries (syncCrates entries).toConfigCrates firstTarget.managedPath after.managed =
        .ok (some [beta.log]) ∧
      witness.logs.vkeys.lookup beta.origin = none ∧
      ¬ Tracks (syncCrates entries) firstTarget bareConfig.manualLogs witness after.managed := by
  obtain ⟨world, booted, runs, running, own, idle, quiet, dir, missing⟩ := first_start
  obtain ⟨left, passed, loaded⟩ := first_pass
  have checks : betaClient.ChecksUrls := feedClient_checksUrls none (feedBody [beta])
  obtain ⟨shot, afterShot, ended⟩ := pass_alone emptyDirectory_rests runs quiet
    (idle (.oneShot ())) (fun same => by cases same) checks .none
  rw [dir, passed] at ended
  have held : loadManagedEntries (syncCrates entries).toConfigCrates firstTarget.managedPath
      (dirOf shot.writers.disk shot.etag).managed = .ok (some [beta.log]) := by
    rw [ended.dir]
    exact loaded
  have memory : shot.memory = some booted := ended.memory.trans running
  have alive : shot.memory.isSome = true := Option.isSome_iff_exists.mpr ⟨booted, memory⟩
  have waiting : shot.stage .poller = .idle := by
    rw [ended.stage]
    exact (elsewhere world.stage () _).trans (idle .poller)
  obtain ⟨polled, last, afterPoll, endedPoll, same⟩ :=
    poll_unchanged afterShot ended.calls waiting alive held
  have stage : polled.stage .poller = .ended (.ok ⟨.unchanged, some [beta.log]⟩) := by
    rw [endedPoll.stage]
    exact Function.update_self _ _ _
  have stays : loadManagedEntries (syncCrates entries).toConfigCrates firstTarget.managedPath
      polled.managed = .ok (some [beta.log]) := by
    have file : polled.managed = last.managed := congrArg StateDir.managed endedPoll.dir
    rw [file, same]
    exact held
  refine ⟨polled, _, booted, afterPoll, stage, rfl, ?_, stays, missing, ?_⟩
  · exact congrArg (Option.map _) (endedPoll.memory.trans memory)
  · intro tracks
    obtain ⟨found, loads, merged⟩ := tracks
    cases loads.symm.trans stays
    have unlisted : beta.origin ∉ (Allowlist.collect bareConfig.manualLogs).vkeys := by
      rw [Allowlist.mem_collect]
      decide
    rw [merged, Allowlist.lookup_merge_of_not_mem unlisted] at missing
    cases missing

end Runs

end MosskeysWitness.Interleaving
