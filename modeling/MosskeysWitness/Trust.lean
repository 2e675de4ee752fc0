import MosskeysWitness.Library.Transition
import MosskeysWitness.Merge
import MosskeysWitness.StoredNote

/-! What the allowlist decides over whole runs: a log that the operator lists by hand is cosigned
under the keys listed for it and no others, whatever the feed serves, and a log that is off the
list is not touched until it is back. -/

namespace MosskeysWitness

open Relation (ReflTransGen)

section Steps

variable {crates : WitnessCrates} {identity : Identity}

theorem vet_snapshot {logs : Allowlist crates} {body : Text} {vetted : Vetted crates}
    (passed : vet crates logs body = .ok vetted) : vetted.snapshot = logs := by
  have outcome := vets logs body
  rw [passed] at outcome
  cases outcome with
  | passed _ snapshot => exact snapshot

/-- Where the requests of the history come from: a step that vets one takes the allowlist in
force and a new id. -/
theorem step_vetted {world next : World crates} (step : Step identity world next) {id : Nat}
    {vetted : Vetted crates} (member : Event.vetted id vetted ∈ next.history) :
    Event.vetted id vetted ∈ world.history ∨
      ∃ process, world.machine = .up process ∧ vetted.snapshot = process.witness.logs ∧
        id = world.nextId := by
  cases step with
  | boot | swap | stop => exact Or.inl member
  | accept passed =>
      rename_i process nextId history body fresh
      rcases List.mem_cons.mp member with same | earlier
      · cases same
        exact Or.inr ⟨process, rfl, vet_snapshot passed, rfl⟩
      · exact Or.inl earlier
  | refuse | readClock | clockFails | commit | reject | respond | monitor =>
      rcases List.mem_cons.mp member with same | earlier
      · cases same
      · exact Or.inl earlier
  | crash count approved =>
      dsimp only at member
      split at member
      · rcases List.mem_cons.mp member with same | earlier
        · cases same
        · exact Or.inl earlier
      · exact Or.inl member

/-- What a step does to the lists of a running witness: nothing, or one hot-swap. -/
theorem step_lists {process next : Process crates} {nextId nextId' : Nat}
    {history history' : History crates}
    (step : Step identity ⟨.up process, nextId, history⟩ ⟨.up next, nextId', history'⟩) :
    next.witness.manualLogs = process.witness.manualLogs ∧
      (next.witness.logs = process.witness.logs ∨
        ∃ managed, next.witness.logs = process.witness.manualLogs.merge managed) := by
  cases step with
  | swap managed => exact ⟨rfl, Or.inr ⟨managed, rfl⟩⟩
  | commit approved submitted =>
      rename_i witness front back replies id vetted timestamp state body after
      have manual := submit_manualLogs witness vetted timestamp.val none
      have logs := submit_logs witness vetted timestamp.val none
      rw [submitted] at manual logs
      exact ⟨manual, Or.inl logs⟩
  | reject submitted =>
      rename_i witness front back replies id vetted timestamp error after
      have manual := submit_manualLogs witness vetted timestamp.val none
      have logs := submit_logs witness vetted timestamp.val none
      rw [submitted] at manual logs
      exact ⟨manual, Or.inl logs⟩
  | accept | refuse | readClock | clockFails | respond | monitor => exact ⟨rfl, Or.inl rfl⟩

end Steps

section Pinned

variable {crates : ConfigCrates} {identity : Identity} {raw : RawConfig}

/-- A step of a deployment on the config file that reads as `raw`. The managed file may be
anything at each start. -/
def Deployed (crates : ConfigCrates) (identity : Identity) (raw : RawConfig)
    (world next : World crates.toWitnessCrates) : Prop :=
  Step identity world next ∧ ∀ file process, world.machine = .down file →
    next.machine = .up process → ∃ managed, Boots crates raw managed process.witness

/-- `keys` are in force for `origin`, and nothing of it was ever vetted under others. -/
structure Pinned (origin : Text) (keys : List crates.log.VerifierKey)
    (world : World crates.toWitnessCrates) : Prop where
  listed : ∀ process, world.machine = .up process →
    process.witness.manualLogs.vkeys.lookup origin = some keys ∧
      process.witness.logs.vkeys.lookup origin = some keys
  vetted : ∀ id vetted, Event.vetted id vetted ∈ world.history → vetted.origin = origin →
    vetted.trusted = keys

theorem pinned_step {origin : Text} {keys : List crates.log.VerifierKey}
    (starts : ∀ managed witness, Boots crates raw managed witness →
      witness.manualLogs.vkeys.lookup origin = some keys ∧
        witness.logs.vkeys.lookup origin = some keys)
    {world next : World crates.toWitnessCrates} (pinned : Pinned origin keys world)
    (step : Deployed crates identity raw world next) : Pinned origin keys next where
  listed := by
    intro process up
    rcases next with ⟨machine, nextId', history'⟩
    cases up
    rcases world with ⟨file | before, nextId, history⟩
    · rcases step.2 file process rfl rfl with ⟨managed, boots⟩
      exact starts managed process.witness boots
    · rcases pinned.listed before rfl with ⟨manual, logs⟩
      rcases step_lists step.1 with ⟨same, kept | ⟨managed, swapped⟩⟩
      · exact ⟨same ▸ manual, kept ▸ logs⟩
      · refine ⟨same ▸ manual, ?_⟩
        rw [swapped, Allowlist.lookup_merge_of_mem (Finmap.mem_of_lookup_eq_some manual)]
        exact manual
  vetted := by
    intro id vetted member named
    rcases step_vetted step.1 member with earlier | ⟨process, up, snapshot, -⟩
    · exact pinned.vetted id vetted earlier named
    · have held : vetted.snapshot.vkeys.lookup vetted.origin = some vetted.trusted := vetted.held
      rw [snapshot, named, (pinned.listed process up).2] at held
      exact (Option.some.inj held).symm

theorem boots_pinned {bare : LoadedConfig crates.toWitnessCrates}
    (alone : validate crates raw none = .ok bare) {log : LogConfig crates.toWitnessCrates}
    (stanza : log ∈ bare.manualLogs) {managed : File} {witness : Witness crates.toWitnessCrates}
    (boots : Boots crates raw managed witness) :
    witness.manualLogs.vkeys.lookup log.origin = some log.vkeys ∧
      witness.logs.vkeys.lookup log.origin = some log.vkeys := by
  rcases boots.logs alone with ⟨entries, -, kept, merged, -⟩
  rcases validate_ok alone with ⟨listed, manual, -, -⟩
  have distinct : Distinct bare.manualLogs := by
    rcases validateEntries_ok_iff.mp manual with ⟨pairs, apart, -⟩
    rw [Distinct, origins_of_validates pairs]
    exact apart
  have own : (Allowlist.collect bare.manualLogs).vkeys.lookup log.origin = some log.vkeys :=
    (Allowlist.lookup_collect_iff distinct).mpr ⟨log, stanza, rfl, rfl⟩
  rw [kept, merged, Allowlist.lookup_merge_of_mem (Finmap.mem_of_lookup_eq_some own)]
  exact ⟨own, own⟩

/-- Whatever the feed has served at any time, every record of a log that the config file lists
carries a genuine signature under one of the keys listed there. -/
theorem pinned_log_needs_pinned_key (faithful : crates.toStoreCrates.Faithful)
    (notes : crates.log.NoteLaws) {limit : Nat} (trips : crates.log.RoundTrips limit)
    (verifier : crates.log.VerifyLaws) {bare : LoadedConfig crates.toWitnessCrates}
    (alone : validate crates raw none = .ok bare) {log : LogConfig crates.toWitnessCrates}
    (stanza : log ∈ bare.manualLogs)
    {world : World crates.toWitnessCrates}
    (run : ReflTransGen (Deployed crates identity raw) World.initial world)
    {commit : Commit crates.toWitnessCrates}
    (member : commit ∈ commitsOf world.history log.origin) :
    ∃ note signature key, commit.state.note = crates.log.marshal note ∧
      ((crates.log.signatures note).length ≤ limit →
        crates.log.parseNote commit.state.note = .ok note) ∧
      signature ∈ crates.log.signatures note ∧ key ∈ log.vkeys ∧
      crates.log.names key signature = true ∧
      crates.log.verifies key (crates.log.text note) signature = true := by
  have pinned : Pinned log.origin log.vkeys world := by
    refine Transition.run_keeps ?_ run ⟨?_, ?_⟩
    · intro before after pinned step
      exact pinned_step (fun _ _ => boots_pinned alone stanza) pinned step
    · intro process up
      cases up
    · intro id vetted vetted_
      cases vetted_
  have reachable : Reachable identity world := ReflTransGen.mono (fun _ _ step => step.1) _ _ run
  have explained := (sound_of_reachable faithful reachable).explained
  rcases mem_commitsOf.mp member with ⟨committed, named⟩
  rcases List.append_of_mem committed with ⟨later, earlier, whole⟩
  rw [whole] at explained
  rcases explained.at with ⟨explains, before⟩
  obtain ⟨note, checkpoint, logs, edSig, mlSig, story⟩ :=
    tellsStory notes trips verifier ⟨explains, before⟩
  have accepted : Event.vetted commit.id commit.vetted ∈ world.history := by
    rw [whole]
    exact List.mem_append_right _ (List.mem_cons_of_mem _ explains.1)
  have origin : commit.vetted.origin = log.origin := by
    rw [← (commit_settled explains).cosigned.origin, named]
  have trusted := pinned.vetted _ _ accepted origin
  rcases List.exists_mem_of_ne_nil _ story.signed with ⟨signature, signed⟩
  rcases story.trusted signature signed with ⟨key, listed, names, verifies⟩
  refine ⟨note, signature, key, story.rendered, story.reads, ?_, trusted ▸ listed, names,
    verifies⟩
  rw [story.signatures]
  exact List.mem_append_left _ signed

section PinnedLog

open Reference

def pinnedRaw : RawConfig := { rawConfig with logs := [⟨origin, [KeyLine.encode logKey]⟩] }

def pinnedBare : LoadedConfig witnessCrates :=
  { bareConfig with manualLogs := [logConfig], logs := [logConfig] }

theorem pinnedRaw_accepted :
    validate (syncCrates entries).toConfigCrates pinnedRaw none = .ok pinnedBare := by
  have validates : @Validates (syncCrates entries).toConfigCrates
      ⟨origin, [KeyLine.encode logKey]⟩ logConfig :=
    ⟨rfl, .cons ((syncCrates_roundTrips entries).parse_encode logKey) .nil⟩
  refine rawConfig_withLogs ?_
  rw [validateEntries_ok_iff]
  exact ⟨.cons validates .nil, List.nodup_singleton _, by simp⟩

theorem pinned_record_is_signed : ∃ (world : World witnessCrates) (commit : Commit witnessCrates),
    ReflTransGen (Deployed (syncCrates entries).toConfigCrates Reference.identity pinnedRaw)
      World.initial world ∧ commit ∈ commitsOf world.history origin ∧
    ∃ note signature, commit.state.note = witnessCrates.log.marshal note ∧
      signature ∈ witnessCrates.log.signatures note ∧
      witnessCrates.log.verifies logKey (witnessCrates.log.text note) signature = true := by
  rcases starts pinnedBare.toConfig (List.cons_ne_nil _ _) with ⟨witness, started, empty⟩
  have boots : Boots (syncCrates entries).toConfigCrates pinnedRaw none witness :=
    ⟨_, pinnedBare, _, _, _, _, _, pinnedRaw_accepted, started⟩
  have booted : Deployed (syncCrates entries).toConfigCrates Reference.identity pinnedRaw
      World.initial ⟨.up ⟨witness, [], []⟩, 0, []⟩ := by
    refine ⟨.boot rfl started, ?_⟩
    intro file process down up
    cases up
    exact ⟨none, boots⟩
  have listed := (Witness.fromConfig_starts started).logs
  have identified := (fromConfig_ok started).2
  have held : witness.logs.vkeys.lookup origin = some [logKey] := by
    rw [listed]
    exact Finmap.lookup_insert _
  have tree : StoresTree witnessCrates entries origin (witness.latest origin) := by
    intro state found
    rw [empty] at found
    cases found
  have steps : ∀ process nextId history next,
      Step Reference.identity ⟨.up process, nextId, history⟩ next →
        Deployed (syncCrates entries).toConfigCrates Reference.identity pinnedRaw
          ⟨.up process, nextId, history⟩ next := by
    intro process nextId history next step
    refine ⟨step, ?_⟩
    intro file other down
    cases down
  obtain ⟨next, commit, run, extended, -⟩ := extends_run steps identified held tree 0 [] 1
    (by rw [empty]; decide) (by decide) 100 (by decide)
  have whole := (ReflTransGen.single booted).trans run
  have member : commit ∈ commitsOf (exchange commit ++ []) origin :=
    mem_commitsOf.mpr ⟨by simp [exchange], extended.stored⟩
  obtain ⟨note, signature, key, rendered, -, signed, trusted, -, verifies⟩ :=
    pinned_log_needs_pinned_key storeCrates_faithful (noteLaws entries) (roundTrips entries 100)
      (verifyLaws entries) pinnedRaw_accepted (List.mem_singleton_self logConfig) whole member
  rw [List.mem_singleton.mp trusted] at verifies
  exact ⟨_, commit, whole, member, note, signature, rendered, signed, verifies⟩

end PinnedLog

end Pinned

section Dropped

variable {crates : WitnessCrates} {identity : Identity} {origin : Text}

def OffList (identity : Identity) (origin : Text) (world next : World crates) : Prop :=
  Step identity world next ∧ ∀ process, world.machine = .up process →
    process.witness.logs.vkeys.lookup origin = none

def Drained (origin : Text) (world : World crates) : Prop :=
  ∀ process, world.machine = .up process →
    ∀ request ∈ process.pending, request.vetted.origin ≠ origin

theorem step_commitsOf {world next : World crates} (step : Step identity world next)
    (drained : Drained origin world) :
    commitsOf next.history origin = commitsOf world.history origin := by
  have other : ∀ {witness : Witness crates} {front back : List (Pending crates)}
      {replies : List (Commit crates)} {nextId : Nat} {history : History crates} {id : Nat}
      {vetted : Vetted crates} {timestamp : {timestamp : UInt64 // timestamp ≠ 0}}
      {state : LogState} {body : Text},
      Drained origin
        ⟨.up ⟨witness, front ++ ⟨id, vetted, some timestamp⟩ :: back, replies⟩, nextId, history⟩ →
      settle witness.toIdentity vetted timestamp.val (witness.latest vetted.origin) =
        .ok (state, body) →
      commitsOf (.committed ⟨id, vetted, timestamp.val, state, body⟩ :: history) origin =
        commitsOf history origin := by
    intro witness front back replies nextId history id vetted timestamp state body drained approved
    have apart : vetted.origin ≠ origin := drained _ rfl ⟨id, vetted, some timestamp⟩ (by simp)
    rw [← settle_origin approved] at apart
    simp [commitsOf, commits, apart]
  cases step with
  | commit approved => exact other drained approved
  | crash count approved =>
      dsimp only
      split
      · exact other drained approved
      · rfl
  | boot | swap | accept | refuse | readClock | clockFails | reject | respond | monitor
  | stop => rfl

theorem step_drained {world next : World crates} (step : OffList identity origin world next)
    (drained : Drained origin world) : Drained origin next := by
  rcases step with ⟨step, off⟩
  intro process up request member
  cases step with
  | boot =>
      cases up
      cases member
  | swap | refuse | respond | monitor =>
      cases up
      exact drained _ rfl request member
  | accept passed =>
      cases up
      rcases List.mem_append.mp member with before | fresh
      · exact drained _ rfl request before
      · cases List.mem_singleton.mp fresh
        intro same
        rename_i process nextId history body vetted
        have held : vetted.snapshot.vkeys.lookup vetted.origin = some vetted.trusted := vetted.held
        rw [vet_snapshot passed, same, off process rfl] at held
        cases held
  | readClock | clockFails | commit | reject =>
      cases up
      have apart := drained _ rfl
      simp only [List.forall_mem_append, List.forall_mem_cons] at apart
      simp only [List.mem_append, List.mem_cons] at member
      aesop
  | stop | crash => cases up

/-- While an origin is off the allowlist, no request of it is let in: what is committed for it
was let in before, and once that is through, its records and its head stay as they are, over
hot-swaps, crashes and restarts. -/
theorem dropped_log_untouched (faithful : crates.toStoreCrates.Faithful)
    {before after : World crates} (reachable : Reachable identity before)
    (run : ReflTransGen (OffList identity origin) before after) :
    (∀ commit ∈ commitsOf after.history origin,
      Event.vetted commit.id commit.vetted ∈ before.history) ∧
    (Drained origin before →
      commitsOf after.history origin = commitsOf before.history origin ∧
      ∀ process, after.machine = .up process →
        process.witness.latest origin = latestCommitted before.history origin) := by
  have vetted : ∀ id vetted, Event.vetted id vetted ∈ after.history → vetted.origin = origin →
      Event.vetted id vetted ∈ before.history := by
    refine Transition.run_keeps (motive := fun world => ∀ id vetted,
      Event.vetted id vetted ∈ world.history → vetted.origin = origin →
        Event.vetted id vetted ∈ before.history) ?_ run (fun _ _ member _ => member)
    intro world next ih step id vetted member named
    rcases step_vetted step.1 member with earlier | ⟨process, up, snapshot, -⟩
    · exact ih id vetted earlier named
    · have held : vetted.snapshot.vkeys.lookup vetted.origin = some vetted.trusted := vetted.held
      rw [snapshot, named, step.2 process up] at held
      cases held
  have steps : ReflTransGen (Step identity) before after :=
    ReflTransGen.mono (fun _ _ step => step.1) _ _ run
  have sound := sound_of_reachable faithful (reachable.trans steps)
  refine ⟨?_, ?_⟩
  · intro commit member
    rcases mem_commitsOf.mp member with ⟨committed, named⟩
    rcases sound.explained.of_mem committed with ⟨later, earlier, whole, explains, -⟩
    refine vetted _ _ ?_ ((commit_settled explains).cosigned.origin.symm.trans named)
    rw [whole]
    exact List.mem_append_right _ (List.mem_cons_of_mem _ explains.1)
  · intro drained
    have kept : Drained origin after ∧
        commitsOf after.history origin = commitsOf before.history origin := by
      refine Transition.run_keeps (motive := fun world => Drained origin world ∧
        commitsOf world.history origin = commitsOf before.history origin) ?_ run ⟨drained, rfl⟩
      intro world next ih step
      exact ⟨step_drained step ih.1, (step_commitsOf step.1 ih.1).trans ih.2⟩
    refine ⟨kept.2, ?_⟩
    intro process up
    rw [sound.latest up, latestCommitted_eq_head, latestCommitted_eq_head, kept.2]

section DroppedLog

open Reference

/-- A start that knows the reference log from the managed file only. -/
def managedConfig : Config witnessCrates := { Reference.config with manualLogs := [] }

theorem dropped_record_stays :
    ∃ (before after : World witnessCrates) (commit : Commit witnessCrates),
    Reachable Reference.identity before ∧
      ReflTransGen (OffList Reference.identity Reference.origin) before after ∧
      after.machine ≠ before.machine ∧ commitsOf after.history Reference.origin = [commit] := by
  rcases starts managedConfig (List.cons_ne_nil _ _) with ⟨witness, started, empty⟩
  have booted : Step Reference.identity World.initial ⟨.up ⟨witness, [], []⟩, 0, []⟩ :=
    .boot rfl started
  have listed := (Witness.fromConfig_starts started).logs
  have noManual := (Witness.fromConfig_starts started).manualLogs
  have identified := (fromConfig_ok started).2
  have held : witness.logs.vkeys.lookup Reference.origin = some [logKey] := by
    rw [listed]
    exact Finmap.lookup_insert _
  have tree : StoresTree witnessCrates entries Reference.origin
      (witness.latest Reference.origin) := by
    intro state found
    rw [empty] at found
    cases found
  obtain ⟨next, commit, run, extended, -, -, -, manual⟩ :=
    extends_run (fun _ _ _ _ step => step) identified held tree 0 [] 1
      (by rw [empty]; decide) (by decide) 100 (by decide)
  let bare := (next.applyManagedEntries []).2
  have swapped : Step Reference.identity ⟨.up ⟨next, [], []⟩, 1, exchange commit ++ []⟩
      ⟨.up ⟨bare, [], []⟩, 1, exchange commit ++ []⟩ := .swap []
  have reachable := ((ReflTransGen.single booted).trans run).tail swapped
  have off : bare.logs.vkeys.lookup Reference.origin = none := by
    change (next.manualLogs.merge []).vkeys.lookup Reference.origin = none
    rw [manual, noManual]
    rfl
  have stopped : OffList Reference.identity Reference.origin
      ⟨.up ⟨bare, [], []⟩, 1, exchange commit ++ []⟩
      ⟨.down bare.store.inner.file, 1, exchange commit ++ []⟩ := by
    refine ⟨.stop, ?_⟩
    intro process up
    cases up
    exact off
  have drained : Drained Reference.origin
      ⟨.up ⟨bare, [], []⟩, 1, exchange commit ++ []⟩ := by
    intro process up request member
    cases up
    cases member
  have window := ReflTransGen.single stopped
  rcases dropped_log_untouched storeCrates_faithful reachable window with ⟨-, untouched⟩
  refine ⟨_, _, commit, reachable, window, by simp, (untouched drained).1.trans ?_⟩
  simp [exchange, commitsOf, commits, extended.stored]

end DroppedLog

end Dropped

end MosskeysWitness
