import MosskeysWitness.Rendering

/-! What a poll leaves behind, on disk and in memory, for every way it can go. -/

namespace MosskeysWitness

section Outcomes

variable {crates : SyncCrates} {target : FeedTarget} {client : HttpClient} {faults : Faults}
  {dir after : StateDir}

theorem pass_failed {error : SyncError}
    (failed : syncFeed crates target client faults dir = (.error error, after)) :
    after.managed = dir.managed ∧ after.etag = dir.etag := by
  cases syncFeed_pass failed with
  | unplanned => exact ⟨rfl, rfl⟩
  | unwritten temp => exact ⟨rfl, rfl⟩

theorem pass_unmodified {report : SyncReport crates.toWitnessCrates}
    (passed : syncFeed crates target client faults dir = (.ok report, after))
    (outcome : report.outcome = .unchanged) : after.managed = dir.managed := by
  cases syncFeed_pass passed with
  | notModified => rfl
  | unchanged planned => exact saveEtag_managed _ _ _
  | rewritten planned => cases outcome

theorem pass_updated {report : SyncReport crates.toWitnessCrates}
    (passed : syncFeed crates target client faults dir = (.ok report, after))
    (outcome : report.outcome = .updated) :
    ∃ logs newEtag response body, report.entries = some logs ∧
      Fetched target client dir logs newEtag response body := by
  rcases syncFeed_ok passed with ⟨unchanged, -, -⟩ | fetched
  · rw [unchanged] at outcome
    cases outcome
  · exact fetched

variable {witness : Witness crates.toWitnessCrates}

theorem poll_failed {error : SyncError}
    (failed : syncFeed crates target client faults dir = (.error error, after)) :
    pollOnce crates target client faults witness dir = (witness, after) := by
  rw [pollOnce, failed]

theorem poll_unmodified {report : SyncReport crates.toWitnessCrates}
    (passed : syncFeed crates target client faults dir = (.ok report, after))
    (outcome : report.outcome = .unchanged) :
    pollOnce crates target client faults witness dir = (witness, after) := by
  rw [pollOnce, passed]
  simp [outcome]

theorem poll_updated {report : SyncReport crates.toWitnessCrates}
    {logs : List (LogConfig crates.toWitnessCrates)}
    (passed : syncFeed crates target client faults dir = (.ok report, after))
    (outcome : report.outcome = .updated) (entries : report.entries = some logs) :
    pollOnce crates target client faults witness dir =
      ((witness.applyManagedEntries logs).2, after) := by
  rw [pollOnce, passed]
  simp [outcome, entries]

end Outcomes

/-- The set a feed's answer stands for, as it is installed. -/
structure Installed (crates : SyncCrates) (target : FeedTarget) (client : HttpClient)
    (dir after : StateDir) (logs : List (LogConfig crates.toWitnessCrates)) : Prop where
  answered : ∃ response body feed, client ⟨target.feedUrl, cachedEtag dir⟩ = .ok response ∧
    response.readToString maxFeedBytes = .ok body ∧ crates.readFeed body = .ok feed ∧
    List.Forall₂ Validates (feed.logs.map FeedLog.raw) logs
  loads : loadManagedEntries crates.toConfigCrates target.managedPath after.managed =
    .ok (some logs)
  nonempty : logs ≠ []
  distinct : Distinct logs
  named : ∀ log ∈ logs, log.origin ≠ []
  trusted : ∀ log ∈ logs, log.vkeys ≠ []

/-- A failed poll changes nothing, an unchanged one leaves the managed file, and an update
installs the feed's entries, on disk and in memory. -/
theorem polls_install_whole_sets {crates : SyncCrates} (laws : crates.RoundTrips)
    {client : HttpClient} (checks : client.ChecksUrls) (target : FeedTarget) (faults : Faults)
    (dir after : StateDir) (witness : Witness crates.toWitnessCrates) :
    (∀ error, syncFeed crates target client faults dir = (.error error, after) →
      after.managed = dir.managed ∧ after.etag = dir.etag ∧
        pollOnce crates target client faults witness dir = (witness, after)) ∧
    (∀ report, syncFeed crates target client faults dir = (.ok report, after) →
      report.outcome = .unchanged → after.managed = dir.managed ∧
        pollOnce crates target client faults witness dir = (witness, after)) ∧
    ∀ report, syncFeed crates target client faults dir = (.ok report, after) →
      report.outcome = .updated → ∃ logs, report.entries = some logs ∧
        Installed crates target client dir after logs ∧
        pollOnce crates target client faults witness dir =
          ((witness.applyManagedEntries logs).2, after) := by
  refine ⟨?_, ?_, ?_⟩
  · intro error failed
    obtain ⟨managed, etag⟩ := pass_failed failed
    exact ⟨managed, etag, poll_failed failed⟩
  · intro report passed outcome
    exact ⟨pass_unmodified passed outcome, poll_unmodified passed outcome⟩
  · intro report passed outcome
    obtain ⟨logs, newEtag, response, body, entries, fetched⟩ := pass_updated passed outcome
    obtain ⟨feed, set⟩ := parseFeed_ok fetched.parsed
    have clean : Clean target.feedUrl := checks _ _ fetched.answered
    refine ⟨logs, entries, ?_, poll_updated passed outcome entries⟩
    exact
      { answered := ⟨response, body, feed, fetched.answered, fetched.read, set.read, set.entries⟩
        loads := loads_after laws clean passed entries
        nonempty := set.nonempty
        distinct := set.distinct
        named := fun log _ => log.named
        trusted := fun log _ => log.trusted }

open Reference

/-- The first poll of a feed with two logs, with no managed file yet. -/
theorem first_poll_installs : ∃ (witness : Witness witnessCrates) (after : StateDir),
    pollOnce (syncCrates entries) ⟨feedUrl, "managed", "etag"⟩
        (feedClient none (feedBody [alpha, beta])) .none witness ⟨none, none, none⟩ =
          ((witness.applyManagedEntries [alpha.log, beta.log]).2, after) ∧
      Installed (syncCrates entries) ⟨feedUrl, "managed", "etag"⟩
        (feedClient none (feedBody [alpha, beta])) ⟨none, none, none⟩ after
        [alpha.log, beta.log] := by
  obtain ⟨witness, -, -⟩ := config_starts
  have laws := syncCrates_roundTrips entries
  let target : FeedTarget := ⟨feedUrl, "managed", "etag"⟩
  have parsed : parseFeed (syncCrates entries) (feedBody [alpha, beta]) =
      .ok [alpha.log, beta.log] := parseFeed_feedBody entries (List.cons_ne_nil _ _) (by decide)
  have answers := feedClient_answers (feedBody [alpha, beta]) none
  obtain ⟨after, passed⟩ :=
    pass_rewrites laws target ⟨none, none, none⟩ answers parsed rfl (by simp)
  obtain ⟨-, -, updated⟩ :=
    polls_install_whole_sets laws (feedClient_checksUrls _ _) target .none _ after witness
  obtain ⟨logs, same, installed, polled⟩ := updated _ passed rfl
  cases same
  exact ⟨witness, after, polled, installed⟩

end MosskeysWitness
