import MosskeysWitness.Polling

/-! The allowlist merged at boot and the one merged at a hot-swap. -/

namespace MosskeysWitness

namespace Allowlist

variable {crates : WitnessCrates}

theorem ext {left right : Allowlist crates}
    (same : ∀ origin, left.vkeys.lookup origin = right.vkeys.lookup origin) : left = right := by
  rcases left with ⟨left, named⟩
  rcases right with ⟨right, named'⟩
  have maps : left = right := Finmap.ext_lookup same
  subst maps
  rfl

theorem collect_concat (logs : List (LogConfig crates)) (log : LogConfig crates) :
    collect (logs ++ [log]) = (collect logs).insert log := by
  simp [collect]

theorem lookup_collect (logs : List (LogConfig crates)) (origin : Text) :
    (collect logs).vkeys.lookup origin =
      (logs.reverse.find? fun log => log.origin = origin).map LogConfig.vkeys := by
  induction logs using List.reverseRecOn with
  | nil => rfl
  | append_singleton logs log ih =>
      rw [collect_concat, List.reverse_append, List.reverse_singleton, List.singleton_append,
        List.find?_cons]
      by_cases same : log.origin = origin
      · subst same
        simp [insert]
      · rw [insert, Finmap.lookup_insert_of_ne _ (Ne.symm same), ih]
        simp [same]

theorem mem_collect {logs : List (LogConfig crates)} {origin : Text} :
    origin ∈ (collect logs).vkeys ↔ origin ∈ logs.map LogConfig.origin := by
  rw [← Finmap.lookup_isSome, lookup_collect, Option.isSome_map, List.find?_isSome]
  simp

theorem lookup_collect_append (front back : List (LogConfig crates)) (origin : Text) :
    (collect (front ++ back)).vkeys.lookup origin =
      ((collect back).vkeys.lookup origin).or ((collect front).vkeys.lookup origin) := by
  rw [lookup_collect, lookup_collect, lookup_collect, List.reverse_append, List.find?_append]
  cases back.reverse.find? fun log => log.origin = origin <;> rfl

theorem lookup_collect_filter {logs : List (LogConfig crates)} {kept : LogConfig crates → Bool}
    {origin : Text} (keeps : ∀ log : LogConfig crates, log.origin = origin → kept log = true) :
    (collect (logs.filter kept)).vkeys.lookup origin = (collect logs).vkeys.lookup origin := by
  rw [lookup_collect, lookup_collect, ← List.filter_reverse, List.find?_filter]
  congr 2
  funext log
  by_cases same : log.origin = origin
  · simp [keeps log same]
  · simp [same]

theorem lookup_collect_iff {logs : List (LogConfig crates)} (distinct : Distinct logs)
    {origin : Text} {keys : List crates.log.VerifierKey} :
    (collect logs).vkeys.lookup origin = some keys ↔
      ∃ log ∈ logs, log.origin = origin ∧ log.vkeys = keys := by
  rw [lookup_collect]
  constructor
  · intro found
    obtain ⟨log, held, same⟩ := Option.map_eq_some_iff.mp found
    have member := List.mem_reverse.mp (List.mem_of_find?_eq_some held)
    have origin := List.find?_some held
    exact ⟨log, member, of_decide_eq_true origin, same⟩
  · intro listed
    rcases listed with ⟨log, member, rfl, rfl⟩
    have some_ : (logs.reverse.find? fun other => other.origin = log.origin).isSome := by
      rw [List.find?_isSome]
      exact ⟨log, List.mem_reverse.mpr member, by simp⟩
    obtain ⟨found, held⟩ := Option.isSome_iff_exists.mp some_
    have inside := List.mem_reverse.mp (List.mem_of_find?_eq_some held)
    have same : found.origin = log.origin := by simpa using List.find?_some held
    have one : found = log := List.inj_on_of_nodup_map distinct inside member same
    rw [held, one]
    rfl

theorem merge_eq (manual : Allowlist crates) (managed : List (LogConfig crates)) :
    (manual.merge managed).vkeys =
      manual.vkeys ∪ (collect (managed.filter fun log => log.origin ∉ manual.vkeys)).vkeys := by
  have loop : managed.foldl
      (fun next log => if log.origin ∈ manual.vkeys then next else next.insert log) empty =
        collect (managed.filter fun log => log.origin ∉ manual.vkeys) := by
    induction managed using List.reverseRecOn with
    | nil => rfl
    | append_singleton managed log ih =>
        rw [List.foldl_append, ih, List.filter_append, List.foldl_cons, List.foldl_nil]
        by_cases known : log.origin ∈ manual.vkeys
        · simp [known]
        · simp [known, collect_concat]
  exact congrArg (fun next : Allowlist crates => manual.vkeys ∪ next.vkeys) loop

theorem lookup_merge_of_mem {manual : Allowlist crates} {managed : List (LogConfig crates)}
    {origin : Text} (listed : origin ∈ manual.vkeys) :
    (manual.merge managed).vkeys.lookup origin = manual.vkeys.lookup origin := by
  rw [merge_eq, Finmap.lookup_union_left listed]

theorem lookup_merge_of_not_mem {manual : Allowlist crates} {managed : List (LogConfig crates)}
    {origin : Text} (other : origin ∉ manual.vkeys) :
    (manual.merge managed).vkeys.lookup origin = (collect managed).vkeys.lookup origin := by
  rw [merge_eq, Finmap.lookup_union_right other]
  apply lookup_collect_filter
  intro log same
  rw [same]
  exact decide_eq_true other

/-- The list merge of the config and the map merge of the hot-swap are one merge. -/
theorem collect_merged (manual managed : List (LogConfig crates)) :
    collect (manual ++ managed.filter fun log => log.origin ∉ manual.map LogConfig.origin) =
      (collect manual).merge managed := by
  apply ext
  intro origin
  rw [lookup_collect_append]
  by_cases listed : origin ∈ manual.map LogConfig.origin
  · have skipped : (collect (managed.filter fun log =>
        log.origin ∉ manual.map LogConfig.origin)).vkeys.lookup origin = none := by
      rw [Finmap.lookup_eq_none, mem_collect]
      intro kept
      obtain ⟨log, member, same⟩ := List.mem_map.mp kept
      have unlisted := of_decide_eq_true (List.mem_filter.mp member).2
      exact unlisted (same ▸ listed)
    rw [skipped, lookup_merge_of_mem (mem_collect.mpr listed)]
    rfl
  · have absent : (collect manual).vkeys.lookup origin = none := by
      rw [Finmap.lookup_eq_none, mem_collect]
      exact listed
    rw [absent, Option.or_none, lookup_merge_of_not_mem (by rwa [mem_collect])]
    apply lookup_collect_filter
    intro log same
    rw [same]
    exact decide_eq_true listed

theorem merge_ne_empty {manual managed : List (LogConfig crates)}
    (nonempty : manual ++ managed ≠ []) : ((collect manual).merge managed).vkeys ≠ ∅ := by
  intro empty
  have none : ∀ origin, ((collect manual).merge managed).vkeys.lookup origin = none := by
    intro origin
    rw [empty, Finmap.lookup_empty]
  obtain ⟨log, member⟩ := List.exists_mem_of_ne_nil _ nonempty
  by_cases listed : log.origin ∈ (collect manual).vkeys
  · have found := none log.origin
    rw [lookup_merge_of_mem listed, Finmap.lookup_eq_none] at found
    exact found listed
  · have found := none log.origin
    rw [lookup_merge_of_not_mem listed, Finmap.lookup_eq_none, mem_collect] at found
    rw [mem_collect] at listed
    rcases List.mem_append.mp member with manual | managed
    · exact listed (List.mem_map_of_mem manual)
    · exact found (List.mem_map_of_mem managed)

end Allowlist

section Boot

variable {crates : ConfigCrates}

/-- The map a start builds from the config with `managed` beside the state file. -/
structure Boots (crates : ConfigCrates) (raw : RawConfig) (managed : File)
    (witness : Witness crates.toWitnessCrates) : Prop where
  starts : ∃ (κ : Type) (config : LoadedConfig crates.toWitnessCrates)
    (ed25519 mldsa44 : Except κ LoadedKey) (locked : Bool) (file after : List UInt8),
    validate crates raw managed = .ok config ∧
      Witness.fromConfig crates.toWitnessCrates config.toConfig ed25519 mldsa44 locked file =
        (.ok witness, after)

theorem validate_manual {raw : RawConfig} {managed : File}
    {config bare : LoadedConfig crates.toWitnessCrates}
    (accepted : validate crates raw managed = .ok config)
    (alone : validate crates raw none = .ok bare) : config.manualLogs = bare.manualLogs := by
  obtain ⟨entries, manual, -, -⟩ := validate_ok accepted
  obtain ⟨entries', manual', -, -⟩ := validate_ok alone
  exact Except.ok.inj (manual.symm.trans manual')

theorem Boots.logs {raw : RawConfig} {managed : File} {witness : Witness crates.toWitnessCrates}
    (boots : Boots crates raw managed witness) {bare : LoadedConfig crates.toWitnessCrates}
    (alone : validate crates raw none = .ok bare) :
    ∃ entries, (loadManagedEntries crates (managedFilePath raw.stateFile) managed).map
        (fun entries => entries.getD []) = .ok entries ∧
      witness.manualLogs = .collect bare.manualLogs ∧
      witness.logs = (Allowlist.collect bare.manualLogs).merge entries ∧
      bare.manualLogs ++ entries ≠ [] := by
  rcases boots.starts with ⟨κ, config, ed25519, mldsa44, locked, file, after, accepted, started⟩
  obtain ⟨entries, manual, loaded, merged⟩ := validate_ok accepted
  have starts := Witness.fromConfig_starts started
  have same := validate_manual accepted alone
  refine ⟨entries, loaded, ?_, ?_, ?_⟩
  · rw [starts.manualLogs, same]
  · rw [starts.logs, merged, same, Allowlist.collect_merged]
  · intro none
    obtain ⟨noManual, noEntries⟩ := List.append_eq_nil_iff.mp none
    apply starts.nonempty
    rw [merged, same, noManual, noEntries]
    rfl

end Boot

section Runs

variable {crates : SyncCrates}

/-- One poll: its feed and what goes wrong, and the state directory it finds, which other
processes may have changed in the meantime. -/
structure Poll where
  target : FeedTarget
  client : HttpClient
  faults : Faults
  dir : StateDir

def runPolls (crates : SyncCrates) (witness : Witness crates.toWitnessCrates)
    (polls : List Poll) : Witness crates.toWitnessCrates :=
  polls.foldl (fun witness poll =>
    (pollOnce crates poll.target poll.client poll.faults witness poll.dir).1) witness

/-- A complete set that passed validation: none for a missing managed file, else all a managed
file or a feed listed. -/
inductive ValidSet (crates : SyncCrates) : List (LogConfig crates.toWitnessCrates) → Prop
  | absent : ValidSet crates []
  | file {path file entries} :
      loadManagedEntries crates.toConfigCrates path file = .ok (some entries) →
      ValidSet crates entries
  | feed {body entries} : parseFeed crates body = .ok entries → ValidSet crates entries

theorem ValidSet.distinct {entries : List (LogConfig crates.toWitnessCrates)}
    (valid : ValidSet crates entries) : Distinct entries := by
  cases valid with
  | absent => exact List.nodup_nil
  | file loaded => exact loadManagedEntries_distinct loaded
  | feed parsed =>
      obtain ⟨feed, set⟩ := parseFeed_ok parsed
      exact set.distinct

/-- The manual stanzas are in force, over one valid set, and something is listed. -/
structure Effective (manual : List (LogConfig crates.toWitnessCrates))
    (witness : Witness crates.toWitnessCrates) : Prop where
  kept : witness.manualLogs = .collect manual
  merged : ∃ entries, ValidSet crates entries ∧
    witness.logs = (Allowlist.collect manual).merge entries ∧ manual ++ entries ≠ []

theorem Effective.poll {manual : List (LogConfig crates.toWitnessCrates)}
    {witness : Witness crates.toWitnessCrates} (effective : Effective manual witness)
    (poll : Poll) :
    Effective manual (pollOnce crates poll.target poll.client poll.faults witness poll.dir).1 := by
  rcases passed : syncFeed crates poll.target poll.client poll.faults poll.dir with ⟨result, after⟩
  cases result with
  | error e =>
      rw [poll_failed passed]
      exact effective
  | ok report =>
      cases outcome : report.outcome with
      | unchanged =>
          rw [poll_unmodified passed outcome]
          exact effective
      | updated =>
          obtain ⟨logs, newEtag, response, body, entries, fetched⟩ := pass_updated passed outcome
          obtain ⟨feed, set⟩ := parseFeed_ok fetched.parsed
          rw [poll_updated passed outcome entries]
          refine ⟨effective.kept, logs, .feed fetched.parsed, ?_, ?_⟩
          · rw [← effective.kept]
            rfl
          · exact List.append_ne_nil_of_right_ne_nil _ set.nonempty

theorem Effective.runPolls {manual : List (LogConfig crates.toWitnessCrates)}
    {witness : Witness crates.toWitnessCrates} (effective : Effective manual witness)
    (polls : List Poll) : Effective manual (runPolls crates witness polls) := by
  induction polls generalizing witness with
  | nil => exact effective
  | cons poll polls ih => exact ih (effective.poll poll)

theorem Boots.effective {raw : RawConfig} {managed : File}
    {witness : Witness crates.toWitnessCrates}
    (boots : Boots crates.toConfigCrates raw managed witness)
    {bare : LoadedConfig crates.toWitnessCrates}
    (alone : validate crates.toConfigCrates raw none = .ok bare) :
    Effective bare.manualLogs witness := by
  obtain ⟨entries, loaded, kept, merged, nonempty⟩ := boots.logs alone
  refine ⟨kept, entries, ?_, merged, nonempty⟩
  obtain ⟨listed, found, same⟩ := map_ok loaded
  subst same
  cases listed with
  | none => exact .absent
  | some entries => exact .file found

/-- The boot merge and the hot-swap merge agree, and no poll takes a manual stanza away, mixes
two sets or empties the allowlist. -/
theorem boot_and_swap_agree (laws : crates.RoundTrips) {raw : RawConfig}
    {bare : LoadedConfig crates.toWitnessCrates}
    (alone : validate crates.toConfigCrates raw none = .ok bare) :
    (∀ managed path entries,
      loadManagedEntries crates.toConfigCrates path managed = .ok (some entries) →
        validate crates.toConfigCrates raw managed = .ok (bare.withManaged entries) ∧
        ∀ booted, Boots crates.toConfigCrates raw managed booted →
          ∀ running : Witness crates.toWitnessCrates,
          running.manualLogs = .collect bare.manualLogs →
          (running.applyManagedEntries entries).2.logs = booted.logs) ∧
    (∀ body entries feedUrl, parseFeed crates body = .ok entries → Clean feedUrl →
      ∃ text, renderManaged crates entries feedUrl = .ok text ∧
        ∀ booted, Boots crates.toConfigCrates raw (some (Utf8.encode text)) booted →
          ∀ running : Witness crates.toWitnessCrates,
            running.manualLogs = .collect bare.manualLogs →
            (running.applyManagedEntries entries).2.logs = booted.logs) ∧
    ∀ managed booted polls, Boots crates.toConfigCrates raw managed booted →
      (∀ log ∈ bare.manualLogs,
        (runPolls crates booted polls).logs.vkeys.lookup log.origin = some log.vkeys) ∧
      (∃ entries, ValidSet crates entries ∧
        ∀ origin keys, origin ∉ bare.manualLogs.map LogConfig.origin →
          ((runPolls crates booted polls).logs.vkeys.lookup origin = some keys ↔
            ∃ log ∈ entries, log.origin = origin ∧ log.vkeys = keys)) ∧
      (runPolls crates booted polls).logs.vkeys ≠ ∅ := by
  have agree : ∀ managed path entries,
      loadManagedEntries crates.toConfigCrates path managed = .ok (some entries) →
      ∀ booted, Boots crates.toConfigCrates raw managed booted →
        ∀ running : Witness crates.toWitnessCrates,
        running.manualLogs = .collect bare.manualLogs →
        (running.applyManagedEntries entries).2.logs = booted.logs := by
    intro managed path entries loaded booted boots running manual
    obtain ⟨merged, found, -, logs, -⟩ := boots.logs alone
    rw [loadManagedEntries_path loaded _] at found
    cases found
    rw [logs, ← manual]
    rfl
  refine ⟨?_, ?_, ?_⟩
  · intro managed path entries loaded
    exact ⟨validate_withManaged alone loaded, agree managed path entries loaded⟩
  · intro body entries feedUrl parsed clean
    obtain ⟨feed, set⟩ := parseFeed_ok parsed
    obtain ⟨text, rendered⟩ := renders laws entries feedUrl
    exact ⟨text, rendered, agree _ "" _ (loads_rendered laws set.distinct clean rendered "")⟩
  · intro managed booted polls boots
    obtain ⟨kept, entries, valid, merged, nonempty⟩ := (boots.effective alone).runPolls polls
    obtain ⟨listed, manual, -, -⟩ := validate_ok alone
    have distinct : Distinct bare.manualLogs := by
      obtain ⟨pairs, apart, -⟩ := validateEntries_ok_iff.mp manual
      rw [Distinct, origins_of_validates pairs]
      exact apart
    rw [merged]
    refine ⟨?_, ⟨entries, valid, ?_⟩, ?_⟩
    · intro log member
      have stanza : log.origin ∈ (Allowlist.collect bare.manualLogs).vkeys :=
        Allowlist.mem_collect.mpr (List.mem_map_of_mem member)
      rw [Allowlist.lookup_merge_of_mem stanza, Allowlist.lookup_collect_iff distinct]
      exact ⟨log, member, rfl, rfl⟩
    · intro origin keys other
      rw [Allowlist.lookup_merge_of_not_mem (by rwa [Allowlist.mem_collect]),
        Allowlist.lookup_collect_iff valid.distinct]
    · exact Allowlist.merge_ne_empty nonempty

end Runs

open Reference

/-- A witness with one manual stanza stays on it through a poll of a feed that has the same origin
with other keys, and another log. -/
theorem manual_stanza_stays : ∃ (booted : Witness witnessCrates) (poll : Poll),
    (syncFeed (syncCrates entries) poll.target poll.client poll.faults poll.dir).1 =
        .ok ⟨.updated, some [rekeyed.log, beta.log]⟩ ∧
      (runPolls (syncCrates entries) booted [poll]).logs.vkeys.lookup alpha.origin =
        some [alpha.hybrid, alpha.ed25519] := by
  obtain ⟨booted, started, -⟩ := starts bareConfig.toConfig (List.cons_ne_nil _ _)
  have boots : Boots (syncCrates entries).toConfigCrates rawConfig none booted :=
    ⟨_, bareConfig, _, _, _, _, _, rawConfig_accepted, started⟩
  have parsed : parseFeed (syncCrates entries) (feedBody [rekeyed, beta]) =
      .ok [rekeyed.log, beta.log] :=
    parseFeed_feedBody entries (List.cons_ne_nil _ _) (by decide)
  let poll : Poll := ⟨⟨feedUrl, "managed", "etag"⟩, feedClient none (feedBody [rekeyed, beta]),
    .none, ⟨none, none, none⟩⟩
  obtain ⟨after, passed⟩ := pass_rewrites (syncCrates_roundTrips entries) poll.target poll.dir
    (feedClient_answers (feedBody [rekeyed, beta]) none) parsed rfl (by simp)
  have runs := (boot_and_swap_agree (syncCrates_roundTrips entries) rawConfig_accepted).2.2
  obtain ⟨manual, -, -⟩ := runs none booted [poll] boots
  exact ⟨booted, poll, congrArg Prod.fst passed, manual alpha.log (List.mem_singleton_self _)⟩

end MosskeysWitness
