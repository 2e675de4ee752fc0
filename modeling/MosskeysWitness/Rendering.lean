import MosskeysWitness.Reference.Feed

/-! The managed file as sync writes it is the managed file as config load reads it. -/

namespace MosskeysWitness

/-- The request is answered with this body. -/
def Answers (client : HttpClient) (request : HttpRequest) (body : Text) : Prop :=
  ∃ response, client request = .ok response ∧ response.status = 200 ∧
    response.readToString maxFeedBytes = .ok body

variable {crates : SyncCrates}

theorem Clean.append {left right : Text} (first : Clean left) (second : Clean right) :
    Clean (left ++ right) := by
  intro scalar member
  rcases List.mem_append.mp member with inside | inside
  · exact first scalar inside
  · exact second scalar inside

theorem Commented.commentLine {document text line : Text} (clean : Clean line)
    (rest : Commented document text) : Commented document (commentLine line ++ text) := by
  have spaced : Clean ([' '] ++ line) := Clean.append (by decide) clean
  have whole := Commented.comment spaced rest
  simpa [MosskeysWitness.commentLine] using whole

theorem managedHeader_commented {feedUrl : Text} (clean : Clean feedUrl) (document : Text) :
    Commented document (managedHeader feedUrl ++ document) := by
  have feed : Clean ("Feed: ".toList ++ feedUrl) := Clean.append (by decide) clean
  simp only [managedHeader, List.append_assoc]
  apply Commented.commentLine (by decide)
  apply Commented.commentLine feed
  apply Commented.commentLine (by decide)
  exact .blank .document

section Laws

variable (laws : crates.RoundTrips)
include laws

theorem encodeKey_injective : Function.Injective crates.encodeKey := by
  intro left right same
  have parsed := laws.parse_encode left
  rw [same, laws.parse_encode right] at parsed
  cases parsed
  rfl

theorem entriesOf_injective : Function.Injective (entriesOf crates) := by
  apply List.map_injective_iff.mpr
  intro left right same
  have parts := Prod.mk.inj same
  exact LogConfig.ext parts.1 (List.map_injective_iff.mpr (encodeKey_injective laws) parts.2)

theorem validateEntries_managedFile {logs : List (LogConfig crates.toWitnessCrates)}
    (distinct : Distinct logs) :
    validateEntries crates.toConfigCrates (managedFile crates logs).raw.logs ∅ = .ok logs := by
  have valid : ∀ log : LogConfig crates.toConfigCrates.toWitnessCrates,
      Validates ⟨log.origin, log.vkeys.map crates.encodeKey⟩ log := by
    intro log
    refine ⟨rfl, ?_⟩
    rw [List.forall₂_map_left_iff, List.forall₂_same]
    intro key _
    exact laws.parse_encode key
  rw [validateEntries_ok_iff]
  simp only [managedFile, ManagedFile.raw, List.map_map, List.forall₂_map_left_iff,
    List.forall₂_same, Finset.notMem_empty, not_false_eq_true, implies_true, and_true]
  refine ⟨fun log _ => valid log, ?_⟩
  exact distinct

theorem loads_rendered {logs : List (LogConfig crates.toWitnessCrates)} (distinct : Distinct logs)
    {feedUrl : Text} (clean : Clean feedUrl) {text : Text}
    (rendered : renderManaged crates logs feedUrl = .ok text) (path : String) :
    loadManagedEntries crates.toConfigCrates path (some (Utf8.encode text)) = .ok (some logs) := by
  unfold renderManaged at rendered
  split at rendered
  · cases rendered
  · rename_i document written
    cases rendered
    have read := laws.read_write _ _ _ written (managedHeader_commented clean document)
    rw [loadManagedEntries, readToString_encode]
    simp only [read, validateEntries_managedFile laws distinct]

theorem renders (logs : List (LogConfig crates.toWitnessCrates)) (feedUrl : Text) :
    ∃ text, renderManaged crates logs feedUrl = .ok text := by
  obtain ⟨document, written⟩ := laws.writes (managedFile crates logs)
  exact ⟨managedHeader feedUrl ++ document, by rw [renderManaged, written]⟩

theorem loads_after {target : FeedTarget} {client : HttpClient} {faults : Faults}
    {dir after : StateDir} {report : SyncReport crates.toWitnessCrates}
    (clean : Clean target.feedUrl)
    (passed : syncFeed crates target client faults dir = (.ok report, after))
    {logs : List (LogConfig crates.toWitnessCrates)} (served : report.entries = some logs) :
    loadManagedEntries crates.toConfigCrates target.managedPath after.managed =
      .ok (some logs) := by
  cases syncFeed_pass passed with
  | notModified => cases served
  | unchanged planned =>
      cases served
      cases planSync_ok planned with
      | unchanged fetched loaded same =>
          rw [saveEtag_managed, loaded, entriesOf_injective laws same]
  | rewritten planned =>
      cases served
      rw [saveEtag_managed]
      cases planSync_ok planned with
      | rewrite fetched loaded other rendered =>
          obtain ⟨feed, set⟩ := parseFeed_ok fetched.parsed
          exact loads_rendered laws set.distinct clean rendered target.managedPath

end Laws

theorem pass_unchanged {target : FeedTarget} {client : HttpClient} {dir : StateDir} {body : Text}
    {logs : List (LogConfig crates.toWitnessCrates)}
    (answers : Answers client ⟨target.feedUrl, cachedEtag dir⟩ body)
    (parsed : parseFeed crates body = .ok logs)
    (loaded : loadManagedEntries crates.toConfigCrates target.managedPath dir.managed =
      .ok (some logs)) (faults : Faults) :
    ∃ after, syncFeed crates target client faults dir = (.ok ⟨.unchanged, some logs⟩, after) ∧
      after.managed = dir.managed := by
  obtain ⟨response, answered, ok, read⟩ := answers
  have plans : Plans target client dir (.unchanged logs (response.etag.bind headerText)) :=
    .unchanged ⟨answered, ok, read, parsed, rfl⟩ loaded rfl
  refine ⟨_, ?_, saveEtag_managed (response.etag.bind headerText) faults.etag dir⟩
  simp only [syncFeed, plans.planned]

theorem served {target : FeedTarget} {client : HttpClient} {faults : Faults}
    {dir after : StateDir} {report : SyncReport crates.toWitnessCrates} {body : Text}
    {logs : List (LogConfig crates.toWitnessCrates)}
    (answers : Answers client ⟨target.feedUrl, cachedEtag dir⟩ body)
    (parsed : parseFeed crates body = .ok logs)
    (passed : syncFeed crates target client faults dir = (.ok report, after)) :
    report.entries = some logs := by
  obtain ⟨response, answered, ok, read⟩ := answers
  rcases syncFeed_ok passed with ⟨-, -, response', answered', cached⟩ |
    ⟨others, newEtag, response', body', entries, fetched⟩
  · have same := Except.ok.inj (answered.symm.trans answered')
    subst same
    rw [ok] at cached
    cases cached
  · have same := Except.ok.inj (answered.symm.trans fetched.answered)
    subst same
    have text := Except.ok.inj (read.symm.trans fetched.read)
    subst text
    have listed := Except.ok.inj (parsed.symm.trans fetched.parsed)
    rw [entries, listed]

/-- Over an answer with other entries than the managed file's, the file is rewritten, and then the
ETag step is made. -/
theorem pass_writes (laws : crates.RoundTrips) {target : FeedTarget} {dir : StateDir}
    {client : HttpClient} {body : Text} {logs : List (LogConfig crates.toWitnessCrates)}
    {existing : Option (List (LogConfig crates.toWitnessCrates))} {newEtag : Option Text}
    {response : HttpResponse} (fetched : Fetched target client dir logs newEtag response body)
    (loaded : loadManagedEntries crates.toConfigCrates target.managedPath dir.managed =
      .ok existing) (other : existing ≠ some logs) :
    ∃ text, renderManaged crates logs target.feedUrl = .ok text ∧
      planSync crates target client dir = .ok (.rewrite logs (Utf8.encode text) newEtag) ∧
      ∀ etag, syncFeed crates target client ⟨none, false, etag⟩ dir =
        (.ok ⟨.updated, some logs⟩,
          saveEtag newEtag etag { dir with managed := some (Utf8.encode text), temp := none }) := by
  obtain ⟨text, rendered⟩ := renders laws logs target.feedUrl
  have differs : ∀ entries, existing = some entries →
      entriesOf crates entries ≠ entriesOf crates logs := by
    intro entries held equal
    exact other (held.trans (congrArg some (entriesOf_injective laws equal)))
  have plans := Plans.rewrite fetched loaded differs rendered
  refine ⟨text, rendered, plans.planned, ?_⟩
  intro etag
  simp only [syncFeed, plans.planned, writeAtomic]

theorem pass_rewrites (laws : crates.RoundTrips) (target : FeedTarget) (dir : StateDir)
    {client : HttpClient} {body : Text} {logs : List (LogConfig crates.toWitnessCrates)}
    {existing : Option (List (LogConfig crates.toWitnessCrates))}
    (answers : Answers client ⟨target.feedUrl, cachedEtag dir⟩ body)
    (parsed : parseFeed crates body = .ok logs)
    (loaded : loadManagedEntries crates.toConfigCrates target.managedPath dir.managed =
      .ok existing) (other : existing ≠ some logs) :
    ∃ after, syncFeed crates target client .none dir = (.ok ⟨.updated, some logs⟩, after) := by
  obtain ⟨response, answered, ok, read⟩ := answers
  obtain ⟨text, -, -, passed⟩ :=
    pass_writes laws ⟨answered, ok, read, parsed, rfl⟩ loaded other
  exact ⟨_, passed none⟩

/-- What sync writes is read back as it was served, by the next pass and by the next start. -/
theorem managed_file_loads_back (laws : crates.RoundTrips) {body feedUrl : Text}
    {logs : List (LogConfig crates.toWitnessCrates)} (parsed : parseFeed crates body = .ok logs)
    (clean : Clean feedUrl) :
    (∃ text, renderManaged crates logs feedUrl = .ok text ∧
      ∀ path, loadManagedEntries crates.toConfigCrates path (some (Utf8.encode text)) =
        .ok (some logs)) ∧
    ∀ (target : FeedTarget) (client : HttpClient) (faults : Faults) (dir after : StateDir)
      (report : SyncReport crates.toWitnessCrates), target.feedUrl = feedUrl →
      Answers client ⟨feedUrl, cachedEtag dir⟩ body →
      syncFeed crates target client faults dir = (.ok report, after) →
      loadManagedEntries crates.toConfigCrates target.managedPath after.managed =
        .ok (some logs) ∧
      (∀ (again : HttpClient) (faults : Faults), Answers again ⟨feedUrl, cachedEtag after⟩ body →
        ∃ last, syncFeed crates target again faults after = (.ok ⟨.unchanged, some logs⟩, last) ∧
          last.managed = after.managed) ∧
      ∀ raw config, validate crates.toConfigCrates raw none = .ok config →
        validate crates.toConfigCrates raw after.managed = .ok (config.withManaged logs) := by
  obtain ⟨feed, set⟩ := parseFeed_ok parsed
  refine ⟨?_, ?_⟩
  · obtain ⟨text, rendered⟩ := renders laws logs feedUrl
    exact ⟨text, rendered, loads_rendered laws set.distinct clean rendered⟩
  · intro target client faults dir after report same answers passed
    subst same
    have loaded : loadManagedEntries crates.toConfigCrates target.managedPath after.managed =
        .ok (some logs) := loads_after laws clean passed (served answers parsed passed)
    refine ⟨loaded, ?_, ?_⟩
    · intro again faults answersAgain
      exact pass_unchanged answersAgain parsed loaded faults
    · intro raw config accepted
      exact validate_withManaged accepted loaded

namespace Reference

/-- The managed file sync writes for a served set. -/
def managedBytes (served : List Listed) : List UInt8 :=
  Utf8.encode (managedHeader feedUrl ++
    Toml.write (managedFile (syncCrates entries) (served.map Listed.log)))

theorem loads_managedBytes {served : List Listed} (distinct : (served.map Listed.origin).Nodup)
    (path : String) :
    loadManagedEntries (syncCrates entries).toConfigCrates path (some (managedBytes served)) =
      .ok (some (served.map Listed.log)) := by
  have clean : Clean feedUrl := by decide
  have listed : Distinct (served.map (Listed.log : Listed → LogConfig witnessCrates)) := by
    rw [Distinct, List.map_map]
    exact distinct
  exact loads_rendered (syncCrates_roundTrips entries) listed clean rfl path

theorem feedClient_answers (body : Text) (ifNoneMatch : Option Text) :
    Answers (feedClient none body) ⟨feedUrl, ifNoneMatch⟩ body := by
  have clean : Clean feedUrl := by decide
  have answered : feedClient none body ⟨feedUrl, ifNoneMatch⟩ =
      .ok ⟨200, none, fun _ => .ok body⟩ := if_pos clean
  exact ⟨_, answered, rfl, rfl⟩

end Reference

open Reference in
/-- A first pass over a feed with two logs, and a second one. -/
theorem two_logs_load_back : ∃ (after last : StateDir),
    syncFeed (syncCrates entries) ⟨feedUrl, "managed", "etag"⟩
      (feedClient none (feedBody [quoted, alpha])) .none ⟨none, none, none⟩ =
        (.ok ⟨.updated, some [quoted.log, alpha.log]⟩, after) ∧
    syncFeed (syncCrates entries) ⟨feedUrl, "managed", "etag"⟩
      (feedClient none (feedBody [quoted, alpha])) .none after =
        (.ok ⟨.unchanged, some [quoted.log, alpha.log]⟩, last) ∧
      last.managed = after.managed := by
  have laws := syncCrates_roundTrips entries
  have parsed : parseFeed (syncCrates entries) (feedBody [quoted, alpha]) =
      .ok [quoted.log, alpha.log] :=
    parseFeed_feedBody entries (List.cons_ne_nil _ _) (by decide)
  have clean : Clean feedUrl := by decide
  have answers := feedClient_answers (feedBody [quoted, alpha])
  let target : FeedTarget := ⟨feedUrl, "managed", "etag"⟩
  obtain ⟨after, passed⟩ :=
    pass_rewrites laws target ⟨none, none, none⟩ (answers _) parsed rfl (by simp)
  obtain ⟨-, again, -⟩ :=
    (managed_file_loads_back laws parsed clean).2 _ _ _ _ _ _ rfl (answers _) passed
  obtain ⟨last, unchanged, same⟩ := again _ .none (answers _)
  exact ⟨after, last, passed, unchanged, same⟩

end MosskeysWitness
