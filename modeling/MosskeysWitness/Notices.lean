import MosskeysWitness.Library.Delta
import MosskeysWitness.Merge

/-! What the poller logs of the allowlists it installs, as a journal of the allowlist. -/

namespace MosskeysWitness

namespace AllowlistUpdate

def delta (update : AllowlistUpdate) : Delta Text := ⟨update.added, update.removed, update.rotated⟩

/-- The three lists are in order, without an origin twice. -/
structure Ordered (update : AllowlistUpdate) : Prop where
  added : update.added.Pairwise (· < ·)
  removed : update.removed.Pairwise (· < ·)
  rotated : update.rotated.Pairwise (· < ·)

end AllowlistUpdate

section Swap

variable {crates : WitnessCrates}

theorem sort_increasing (origins : Finset Text) : (origins.sort (· ≤ ·)).Pairwise (· < ·) :=
  (Finset.sortedLT_sort origins).pairwise

theorem applyManagedEntries_reports (witness : Witness crates)
    (managed : List (LogConfig crates)) :
    Delta.Reports witness.logs.vkeys (witness.applyManagedEntries managed).1.delta
      (witness.applyManagedEntries managed).2.logs.vkeys where
  added := by
    intro origin
    simp [Witness.applyManagedEntries, AllowlistUpdate.delta, Finmap.lookup_eq_none,
      Finmap.mem_keys, and_comm]
  removed := by
    intro origin
    simp [Witness.applyManagedEntries, AllowlistUpdate.delta, Finmap.lookup_eq_none,
      Finmap.mem_keys]
  changed := by
    intro origin
    simp only [Witness.applyManagedEntries, AllowlistUpdate.delta, Finset.mem_sort,
      Finset.mem_filter, Finmap.mem_keys, ne_eq, Finmap.lookup_eq_none, not_not]
    tauto
  nodup := ⟨Finset.sort_nodup _ _, Finset.sort_nodup _ _, Finset.sort_nodup _ _⟩

theorem applyManagedEntries_ordered (witness : Witness crates)
    (managed : List (LogConfig crates)) :
    (witness.applyManagedEntries managed).1.Ordered :=
  ⟨sort_increasing _, sort_increasing _, sort_increasing _⟩

theorem applyManagedEntries_total (witness : Witness crates)
    (managed : List (LogConfig crates)) :
    (witness.applyManagedEntries managed).1.total =
      (witness.applyManagedEntries managed).2.logs.vkeys.keys.card := rfl

end Swap

section Polls

variable (crates : SyncCrates)

/-- What a poll logs: the update of the set it installs, if it installs one. -/
def pollNotice (target : FeedTarget) (client : HttpClient) (faults : Faults)
    (witness : Witness crates.toWitnessCrates) (dir : StateDir) : Option AllowlistUpdate :=
  match syncFeed crates target client faults dir with
  | (.error _, _) => none
  | (.ok report, _) =>
      if report.outcome = .updated then
        report.entries.map fun entries => (witness.applyManagedEntries entries).1
      else none

def runNotices (witness : Witness crates.toWitnessCrates) : List Poll → List AllowlistUpdate
  | [] => []
  | poll :: polls =>
      (pollNotice crates poll.target poll.client poll.faults witness poll.dir).toList ++
        runNotices (pollOnce crates poll.target poll.client poll.faults witness poll.dir).1 polls

variable {crates}

theorem poll_logs (witness : Witness crates.toWitnessCrates) (poll : Poll) :
    (pollNotice crates poll.target poll.client poll.faults witness poll.dir = none ∧
      (pollOnce crates poll.target poll.client poll.faults witness poll.dir).1 = witness) ∨
    ∃ entries, pollNotice crates poll.target poll.client poll.faults witness poll.dir =
        some (witness.applyManagedEntries entries).1 ∧
      (pollOnce crates poll.target poll.client poll.faults witness poll.dir).1 =
        (witness.applyManagedEntries entries).2 := by
  unfold pollNotice
  rcases passed : syncFeed crates poll.target poll.client poll.faults poll.dir with ⟨result, after⟩
  cases result with
  | error error =>
      rw [poll_failed passed]
      exact Or.inl ⟨rfl, rfl⟩
  | ok report =>
      cases outcome : report.outcome with
      | unchanged =>
          rw [poll_unmodified passed outcome]
          simp [outcome]
      | updated =>
          rcases pass_updated passed outcome with ⟨logs, -, -, -, entries, -⟩
          rw [poll_updated passed outcome entries]
          simp only [outcome, entries, if_true, Option.map_some]
          exact Or.inr ⟨logs, rfl, rfl⟩

theorem runNotices_journal (witness : Witness crates.toWitnessCrates) (polls : List Poll) :
    Delta.Journal witness.logs.vkeys ((runNotices crates witness polls).map AllowlistUpdate.delta)
      (runPolls crates witness polls).logs.vkeys := by
  induction polls generalizing witness with
  | nil => exact .nil _
  | cons poll polls ih =>
      rw [runNotices, runPolls, List.foldl_cons]
      rcases poll_logs witness poll with ⟨silent, same⟩ | ⟨entries, logged, swapped⟩
      · rw [silent, same]
        exact ih witness
      · rw [logged, swapped]
        exact .cons (applyManagedEntries_reports witness entries) (ih _)

/-- A notice tells exactly what the poll changed, in order, and nothing of the manual logs. -/
structure Told (manual : List (LogConfig crates.toWitnessCrates)) (notice : AllowlistUpdate)
    (before after : Witness crates.toWitnessCrates) : Prop where
  exact : ∀ origin, notice.delta.Names origin ↔
    before.logs.vkeys.lookup origin ≠ after.logs.vkeys.lookup origin
  total : notice.total = after.logs.vkeys.keys.card
  ordered : notice.Ordered
  managed : ∀ origin, notice.delta.Names origin → origin ∉ manual.map LogConfig.origin

theorem Effective.told {manual : List (LogConfig crates.toWitnessCrates)}
    {witness : Witness crates.toWitnessCrates} (effective : Effective manual witness)
    (entries : List (LogConfig crates.toWitnessCrates)) :
    Told manual (witness.applyManagedEntries entries).1 witness
      (witness.applyManagedEntries entries).2 where
  exact := fun _ => (applyManagedEntries_reports witness entries).names_iff
  total := applyManagedEntries_total witness entries
  ordered := applyManagedEntries_ordered witness entries
  managed := by
    intro origin named listed
    rw [(applyManagedEntries_reports witness entries).names_iff] at named
    rcases effective.merged with ⟨current, -, merged, -⟩
    have stanza : origin ∈ (Allowlist.collect manual).vkeys := Allowlist.mem_collect.mpr listed
    apply named
    change witness.logs.vkeys.lookup origin = (witness.manualLogs.merge entries).vkeys.lookup origin
    rw [merged, effective.kept, Allowlist.lookup_merge_of_mem stanza,
      Allowlist.lookup_merge_of_mem stanza]

theorem runPolls_concat (witness : Witness crates.toWitnessCrates) (polls : List Poll)
    (poll : Poll) :
    runPolls crates witness (polls ++ [poll]) =
      (pollOnce crates poll.target poll.client poll.faults (runPolls crates witness polls)
        poll.dir).1 := by
  rw [runPolls, List.foldl_append]
  rfl

theorem runNotices_append (witness : Witness crates.toWitnessCrates) (front back : List Poll) :
    runNotices crates witness (front ++ back) =
      runNotices crates witness front ++
        runNotices crates (runPolls crates witness front) back := by
  induction front generalizing witness with
  | nil => rfl
  | cons poll front ih =>
      rw [List.cons_append, runNotices, runNotices, ih, List.append_assoc]
      rfl

/-- The notices logged since the start tell every change of the allowlist: they give the origins
in force from those at the start, a poll without one changes nothing, and one with a notice
changes exactly the keys of the origins it names, none of them listed by hand. -/
theorem notices_tell_allowlist {raw : RawConfig} {bare : LoadedConfig crates.toWitnessCrates}
    (alone : validate crates.toConfigCrates raw none = .ok bare) {managed : File}
    {booted : Witness crates.toWitnessCrates}
    (boots : Boots crates.toConfigCrates raw managed booted) (polls : List Poll) :
    (runPolls crates booted polls).logs.vkeys.keys =
        (runNotices crates booted polls).foldl (fun origins notice => notice.delta.apply origins)
          booted.logs.vkeys.keys ∧
      (∀ origin, (∀ notice ∈ runNotices crates booted polls, ¬ notice.delta.Names origin) →
        (runPolls crates booted polls).logs.vkeys.lookup origin =
          booted.logs.vkeys.lookup origin) ∧
      ((runPolls crates booted polls).logs.vkeys.keys.card +
          ((runNotices crates booted polls).map fun notice => notice.removed.length).sum =
        booted.logs.vkeys.keys.card +
          ((runNotices crates booted polls).map fun notice => notice.added.length).sum) ∧
      ∀ front poll back, polls = front ++ poll :: back →
        (pollNotice crates poll.target poll.client poll.faults (runPolls crates booted front)
              poll.dir = none ∧
            runPolls crates booted (front ++ [poll]) = runPolls crates booted front) ∨
          ∃ notice, pollNotice crates poll.target poll.client poll.faults
              (runPolls crates booted front) poll.dir = some notice ∧
            runNotices crates booted (front ++ [poll]) =
              runNotices crates booted front ++ [notice] ∧
            Told bare.manualLogs notice (runPolls crates booted front)
              (runPolls crates booted (front ++ [poll])) := by
  have journal := runNotices_journal booted polls
  refine ⟨?_, ?_, ?_, ?_⟩
  · rw [← journal.keys, List.foldl_map]
  · intro origin unnamed
    apply journal.lookup_of_unnamed
    rwa [List.forall_mem_map]
  · have counts := journal.card
    rwa [List.map_map, List.map_map] at counts
  · intro front poll back whole
    have effective := (boots.effective alone).runPolls front
    rw [runPolls_concat, runNotices_append]
    rcases poll_logs (runPolls crates booted front) poll with
      ⟨silent, same⟩ | ⟨entries, logged, swapped⟩
    · exact Or.inl ⟨silent, same⟩
    · refine Or.inr ⟨_, logged, ?_, swapped ▸ effective.told entries⟩
      rw [runNotices, logged]
      rfl

end Polls

open Reference

/-- A poll that adds a log logs it, and says nothing of the one listed by hand. -/
theorem added_log_is_told : ∃ (booted : Witness witnessCrates) (notice : AllowlistUpdate),
    runNotices (syncCrates entries) booted
        [⟨⟨feedUrl, "managed", "etag"⟩, feedClient none (feedBody [beta]), .none,
          ⟨none, none, none⟩⟩] = [notice] ∧
      notice.delta.Names beta.origin ∧ ¬ notice.delta.Names alpha.origin := by
  rcases starts bareConfig.toConfig (List.cons_ne_nil _ _) with ⟨booted, started, -⟩
  have boots : Boots (syncCrates entries).toConfigCrates rawConfig none booted :=
    ⟨_, bareConfig, _, _, _, _, _, rawConfig_accepted, started⟩
  have parts := Witness.fromConfig_starts started
  let target : FeedTarget := ⟨feedUrl, "managed", "etag"⟩
  have parsed : parseFeed (syncCrates entries) (feedBody [beta]) = .ok [beta.log] :=
    parseFeed_feedBody entries (List.cons_ne_nil _ _) (by decide)
  obtain ⟨after, passed⟩ := pass_rewrites (syncCrates_roundTrips entries) target
    ⟨none, none, none⟩ (feedClient_answers (feedBody [beta]) none) parsed rfl (by simp)
  let poll : Poll := ⟨target, feedClient none (feedBody [beta]), .none, ⟨none, none, none⟩⟩
  rcases notices_tell_allowlist rawConfig_accepted boots [poll] with ⟨-, -, -, each⟩
  rcases each [] poll [] rfl with ⟨silent, -⟩ | ⟨notice, logged, notices, told⟩
  · have logs : pollNotice (syncCrates entries) poll.target poll.client poll.faults booted
        poll.dir = some (booted.applyManagedEntries [beta.log]).1 := by
      rw [pollNotice, passed]
      rfl
    rw [runPolls, List.foldl_nil, logs] at silent
    cases silent
  · refine ⟨booted, notice, notices, ?_, ?_⟩
    · have swapped : runPolls (syncCrates entries) booted ([] ++ [poll]) =
          (booted.applyManagedEntries [beta.log]).2 := by
        rw [runPolls_concat]
        exact congrArg Prod.fst (poll_updated passed rfl rfl)
      have apart : beta.origin ∉ bareConfig.logs.map LogConfig.origin := by decide
      have before : booted.logs.vkeys.lookup beta.origin = none := by
        rw [parts.logs, Finmap.lookup_eq_none, Allowlist.mem_collect]
        exact apart
      have now : (booted.manualLogs.merge [beta.log]).vkeys.lookup beta.origin =
          some beta.log.vkeys := by
        have unlisted : beta.origin ∉ (Allowlist.collect bareConfig.manualLogs).vkeys :=
          fun listed => apart (Allowlist.mem_collect.mp listed)
        rw [parts.manualLogs, Allowlist.lookup_merge_of_not_mem unlisted, Allowlist.lookup_collect]
        rfl
      rw [told.exact, swapped]
      change booted.logs.vkeys.lookup beta.origin ≠
        (booted.manualLogs.merge [beta.log]).vkeys.lookup beta.origin
      rw [before, now]
      exact nofun
    · intro named
      exact told.managed _ named (List.mem_singleton_self _)

end MosskeysWitness
