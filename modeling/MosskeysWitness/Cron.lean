import MosskeysWitness.Library.Transition
import MosskeysWitness.Merge

/-! The witness without a poller: the one-shot `sync` runs on a schedule, and its exit code says
whether the witness is to be restarted. -/

namespace MosskeysWitness

open Relation (ReflTransGen)

/-- One scheduled run: the flag, what the feed answers, and what goes wrong. -/
structure SyncRun where
  feedUrlOverride : Option Text
  client : HttpClient
  checks : client.ChecksUrls
  faults : Faults

/-- The state directory and the witness that runs beside it. -/
structure Host (crates : WitnessCrates) where
  dir : StateDir
  witness : Witness crates

namespace Host

/-- A start of the witness on the config file `file` and what is beside the state file. -/
inductive Starts (crates : SyncCrates) (path : String) (file : File) (dir : StateDir) :
    Witness crates.toWitnessCrates → Prop
  | started {κ : Type} {config witness} {ed25519 mldsa44 : Except κ LoadedKey} {stored after} :
      load crates.toConfigCrates path file dir.managed = .ok config →
      Witness.fromConfig crates.toWitnessCrates config.toConfig ed25519 mldsa44 false stored =
        (.ok witness, after) →
      Starts crates path file dir witness

/-- One run of the schedule, with the restart that exit code 10 asks for, or a restart of its
own. -/
inductive Step (crates : SyncCrates) (path : String) (file : File) :
    Host crates.toWitnessCrates → Host crates.toWitnessCrates → Prop
  | quiet {dir witness result after} (run : SyncRun) :
      sync crates path file run.feedUrlOverride run.client run.faults dir = (result, after) →
      exitCode result ≠ 10 → Step crates path file ⟨dir, witness⟩ ⟨after, witness⟩
  | restarted {dir witness result after next} (run : SyncRun) :
      sync crates path file run.feedUrlOverride run.client run.faults dir = (result, after) →
      exitCode result = 10 → Starts crates path file after next →
      Step crates path file ⟨dir, witness⟩ ⟨after, next⟩
  | rebooted {dir witness next} : Starts crates path file dir next →
      Step crates path file ⟨dir, witness⟩ ⟨dir, next⟩

/-- The allowlist in force is the one a fresh start would have. -/
def Current (crates : SyncCrates) (path : String) (file : File)
    (host : Host crates.toWitnessCrates) : Prop :=
  ∃ config, load crates.toConfigCrates path file host.dir.managed = .ok config ∧
    host.witness.logs = .collect config.logs ∧ config.logs ≠ []

variable {crates : SyncCrates} {path : String} {file : File}

theorem Starts.current {dir : StateDir} {witness : Witness crates.toWitnessCrates}
    (starts : Starts crates path file dir witness) : Current crates path file ⟨dir, witness⟩ := by
  cases starts with
  | started loaded started =>
      have parts := Witness.fromConfig_starts started
      exact ⟨_, loaded, parts.logs, parts.nonempty⟩

theorem exitCode_eq_ten {result : Except SyncError SyncOutcome} :
    exitCode result = 10 ↔ result = .ok .updated := by
  rcases result with error | outcome
  · cases error <;> simp [exitCode]
  · cases outcome <;> simp [exitCode]

section Sync

variable {dir after : StateDir} {feedUrlOverride : Option Text} {client : HttpClient}
  {faults : Faults} {result : Except SyncError SyncOutcome}

theorem load_of_read {text : Text} {raw : RawConfig} {managed : File}
    (read : readToString file = .ok text) (known : crates.readConfig text = .ok raw) :
    load crates.toConfigCrates path file managed = validate crates.toConfigCrates raw managed := by
  rw [load, read]
  dsimp only
  rw [known]

theorem sync_of_pass {config : LoadedConfig crates.toWitnessCrates}
    {outcome : SyncOutcome} {entries : Option (List (LogConfig crates.toWitnessCrates))}
    (loaded : load crates.toConfigCrates path file dir.managed = .ok config)
    (passed : syncFeed crates (.fromConfig config feedUrlOverride) client faults dir =
      (.ok ⟨outcome, entries⟩, after)) :
    sync crates path file feedUrlOverride client faults dir = (.ok outcome, after) := by
  unfold sync
  rw [loaded]
  dsimp only
  rw [passed]

theorem sync_quiet
    (ran : sync crates path file feedUrlOverride client faults dir = (result, after))
    (quiet : exitCode result ≠ 10) : after.managed = dir.managed := by
  unfold sync at ran
  split at ran
  · cases ran
    rfl
  · split at ran
    · rename_i failed
      cases ran
      exact (pass_failed failed).1
    · rename_i report _ passed
      cases ran
      rw [Ne, exitCode_eq_ten, Except.ok.injEq] at quiet
      cases outcome : report.outcome with
      | unchanged => exact pass_unmodified passed outcome
      | updated => exact absurd outcome quiet

theorem sync_updated (laws : crates.RoundTrips) (checks : client.ChecksUrls)
    (ran : sync crates path file feedUrlOverride client faults dir = (result, after))
    (asks : exitCode result = 10) :
    ∃ config, load crates.toConfigCrates path file after.managed = .ok config ∧
      config.logs ≠ [] := by
  rw [exitCode_eq_ten] at asks
  unfold sync at ran
  split at ran
  · cases ran
    cases asks
  · rename_i config loaded
    split at ran
    · cases ran
      cases asks
    · rename_i report _ passed
      cases ran
      have outcome : report.outcome = .updated := Except.ok.inj asks
      rcases pass_updated passed outcome with ⟨logs, newEtag, response, body, entries, fetched⟩
      rcases parseFeed_ok fetched.parsed with ⟨feed, set⟩
      have written := loads_after laws (checks _ _ fetched.answered) passed entries
      unfold load at loaded ⊢
      split at loaded
      · cases loaded
      · rename_i read
        split at loaded
        · cases loaded
        · rename_i raw parsed
          rcases validate_accepted loaded with ⟨existing, accepted⟩
          have merged := validate_managed accepted.loaded
          rw [loaded] at merged
          rcases map_ok merged.symm with ⟨bare, alone, -⟩
          refine ⟨bare.withManaged logs, ?_, ?_⟩
          · rw [validate_withManaged alone written]
          · intro none_
            rcases List.append_eq_nil_iff.mp none_ with ⟨noManual, noEntries⟩
            simp only [noManual, List.map_nil, List.not_mem_nil, not_false_eq_true, decide_true,
              List.filter_true] at noEntries
            exact set.nonempty noEntries

end Sync

/-- A restart on exit code 10, and on no other, keeps the allowlist in force what a fresh start
would have, whatever the feeds serve and whatever fails in a run; and the config loads at every
such restart. -/
theorem restart_on_ten_suffices (laws : crates.RoundTrips) {dir : StateDir}
    {witness : Witness crates.toWitnessCrates} (booted : Starts crates path file dir witness)
    {host : Host crates.toWitnessCrates}
    (run : ReflTransGen (Step crates path file) ⟨dir, witness⟩ host) :
    Current crates path file host ∧
      ∀ (next : SyncRun) (result : Except SyncError SyncOutcome) (after : StateDir),
        sync crates path file next.feedUrlOverride next.client next.faults host.dir =
          (result, after) →
        (exitCode result = 10 → ∃ config,
          load crates.toConfigCrates path file after.managed = .ok config ∧ config.logs ≠ []) ∧
        (exitCode result ≠ 10 → Current crates path file ⟨after, host.witness⟩) := by
  have quiet : ∀ {dir after : StateDir} {witness : Witness crates.toWitnessCrates}
      {result : Except SyncError SyncOutcome} (run : SyncRun),
      Current crates path file ⟨dir, witness⟩ →
      sync crates path file run.feedUrlOverride run.client run.faults dir = (result, after) →
      exitCode result ≠ 10 → Current crates path file ⟨after, witness⟩ := by
    intro dir after witness result run current ran other
    rcases current with ⟨config, loaded, logs, nonempty⟩
    have same : after.managed = dir.managed := sync_quiet ran other
    exact ⟨config, same ▸ loaded, logs, nonempty⟩
  have current : Current crates path file host := by
    refine Transition.run_keeps ?_ run booted.current
    intro before next current step
    cases step with
    | quiet run ran other => exact quiet run current ran other
    | restarted run ran asks starts => exact starts.current
    | rebooted starts => exact starts.current
  refine ⟨current, ?_⟩
  intro next result after ran
  exact ⟨sync_updated laws next.checks ran, quiet next current ran⟩

open Reference

def configText : Text :=
  "name = \"witness\"\nlisten = \"0.0.0.0:80\"\nstate_file = \"state.jsonl\"\n".toList ++
    "[keys]\ned25519_seed = \"ed25519.seed\"\nmldsa44_seed = \"mldsa44.seed\"\n".toList ++
      Toml.write ⟨[⟨alpha.origin, alpha.entry.raw.vkeys⟩]⟩

def readConfig (text : Text) : Except String RawConfig :=
  if text = configText then .ok rawConfig else .error "not read"

@[reducible] def scheduledCrates : SyncCrates :=
  { syncCrates entries with readConfig := readConfig }

theorem scheduled_reader : scheduledCrates.readConfig configText = .ok rawConfig := by
  have same : scheduledCrates.readConfig = readConfig := rfl
  rw [congrFun same configText, readConfig, if_pos rfl]

theorem scheduledCrates_roundTrips : scheduledCrates.RoundTrips where
  parse_encode := (syncCrates_roundTrips entries).parse_encode
  writes := (syncCrates_roundTrips entries).writes
  read_write := (syncCrates_roundTrips entries).read_write

theorem scheduled_reads (served : List Listed) :
    scheduledCrates.readFeed (feedBody served) = .ok ⟨served.map Listed.entry⟩ :=
  FeedJson.read_write _

theorem scheduled_entries (listed : Listed) :
    validateEntries scheduledCrates.toConfigCrates [listed.entry.raw] ∅ = .ok [listed.log] := by
  have parsed := scheduledCrates_roundTrips.parse_encode
  have validates : @Validates scheduledCrates.toConfigCrates listed.entry.raw listed.log :=
    ⟨rfl, .cons (parsed listed.hybrid) (.cons (parsed listed.ed25519) .nil)⟩
  rw [validateEntries_ok_iff]
  exact ⟨.cons validates .nil, List.nodup_singleton _, by simp⟩

def configFile : File := some (Utf8.encode configText)

theorem scheduled_valid :
    validate scheduledCrates.toConfigCrates rawConfig none = .ok bareConfig := by
  have name : validateName rawConfig.name = .ok () := by decide
  have path : prefixFromName rawConfig.name = .ok [] := by decide
  have listen : parseListen rawConfig.listen = .ok (.v4 [0, 0, 0, 0] 80) := by decide
  have apart : validateKeys rawConfig.keys = .ok () := by decide
  have logs : validateEntries scheduledCrates.toConfigCrates rawConfig.logs ∅ =
      .ok [alpha.log] := scheduled_entries alpha
  simp only [validate, name, path, listen, apart, logs, bind, Except.bind, pure, Except.pure]
  rfl

theorem scheduled_loads :
    load scheduledCrates.toConfigCrates "witness.toml" configFile none = .ok bareConfig := by
  have read : readToString configFile = .ok configText := by
    rw [configFile, readToString_encode]
  exact (load_of_read read scheduled_reader).trans scheduled_valid

theorem scheduled_parses :
    parseFeed scheduledCrates (feedBody [beta]) = .ok [beta.log] :=
  parseFeed_of_valid (scheduled_reads [beta]) (List.cons_ne_nil _ _) (scheduled_entries beta)

theorem scheduled_sync : ∃ after,
    sync scheduledCrates "witness.toml" configFile (some feedUrl)
      (feedClient none (feedBody [beta]))
        .none ⟨none, none, none⟩ = (.ok .updated, after) ∧ after.managed ≠ none := by
  obtain ⟨after, passed⟩ := pass_rewrites scheduledCrates_roundTrips
    (.fromConfig bareConfig (some feedUrl)) ⟨none, none, none⟩
    (feedClient_answers (feedBody [beta]) none) scheduled_parses rfl (by simp)
  refine ⟨after, sync_of_pass scheduled_loads passed, ?_⟩
  intro missing
  have written := loads_after scheduledCrates_roundTrips (by decide) passed rfl
  rw [missing] at written
  cases written

/-- A scheduled run that fetches a log more, and the restart after it. -/
theorem scheduled_run_applies : ∃ start host : Host witnessCrates,
    Starts scheduledCrates "witness.toml" configFile start.dir start.witness ∧
      ReflTransGen (Step scheduledCrates "witness.toml" configFile) start host ∧
      host.dir.managed ≠ start.dir.managed ∧
      Current scheduledCrates "witness.toml" configFile host := by
  obtain ⟨first, began, -, -⟩ := starts_with Empty bareConfig.toConfig (List.cons_ne_nil _ _)
    Reference.identity.ed25519 Reference.identity.mldsa44
  have booted : Starts scheduledCrates "witness.toml" configFile ⟨none, none, none⟩ first :=
    .started scheduled_loads began
  rcases scheduled_sync with ⟨after, ran, written⟩
  let run : SyncRun := ⟨some feedUrl, feedClient none (feedBody [beta]),
    feedClient_checksUrls _ _, .none⟩
  rcases restart_on_ten_suffices scheduledCrates_roundTrips booted .refl with ⟨-, next⟩
  rcases (next run _ after ran).1 rfl with ⟨config, reloaded, nonempty⟩
  obtain ⟨second, began', -, -⟩ := starts_with Empty config.toConfig nonempty
    Reference.identity.ed25519 Reference.identity.mldsa44
  have restarted : Starts scheduledCrates "witness.toml" configFile after second :=
    .started reloaded began'
  have applied : Step scheduledCrates "witness.toml" configFile ⟨⟨none, none, none⟩, first⟩
      ⟨after, second⟩ := .restarted run ran rfl restarted
  exact ⟨⟨_, first⟩, ⟨after, second⟩, booted, .single applied, written, restarted.current⟩

end Host

end MosskeysWitness
