import MosskeysWitness.Config

/-! One sync pass: fetch the discovery feed conditionally, validate it, rewrite the managed file
when the set changed, and cache the feed's ETag. -/

namespace MosskeysWitness

structure FeedVkeys where
  hybrid : Text
  ed25519 : Text

structure FeedLog where
  origin : Text
  vkeys : FeedVkeys

structure Feed where
  logs : List FeedLog

structure ManagedLog where
  origin : Text
  vkeys : List Text

structure ManagedFile where
  logs : List ManagedLog

/-- The crates with `serde_json::from_str` at the feed and `toml::to_string` at the managed
file. -/
structure SyncCrates extends ConfigCrates where
  readFeed : Text → Except String Feed
  writeManaged : ManagedFile → Except String Text

/-- No control characters below the space. -/
def Clean (text : Text) : Prop := ∀ scalar ∈ text, Strings.isControl scalar = false

theorem clean_iff {text : Text} :
    text.all (fun scalar => !Strings.isControl scalar) = true ↔ Clean text := by
  simp [Clean]

instance (text : Text) : Decidable (Clean text) := decidable_of_iff _ clean_iff

/-- Comment lines and empty lines in front of a TOML document. -/
inductive Commented (document : Text) : Text → Prop
  | document : Commented document document
  | blank {text} : Commented document text → Commented document ('\n' :: text)
  | comment {line text} : Clean line → Commented document text →
      Commented document ('#' :: (line ++ '\n' :: text))

def ManagedFile.raw (managed : ManagedFile) : RawManaged :=
  ⟨managed.logs.map fun log => ⟨log.origin, log.vkeys⟩⟩

/-- `VerifierKey::parse` undoes `encode`, and TOML serialisation round-trips, also behind
comments. -/
structure SyncCrates.RoundTrips (crates : SyncCrates) : Prop where
  parse_encode : ∀ key, crates.parseKey (crates.encodeKey key) = .ok key
  writes : ∀ managed, ∃ document, crates.writeManaged managed = .ok document
  read_write : ∀ managed document text, crates.writeManaged managed = .ok document →
    Commented document text → crates.readManaged text = .ok managed.raw

/-- The HTTP client: a request with its `If-None-Match`, and the answer. Of the headers only the
first `etag` is looked at; the body is what `read_to_string` gives under a limit. -/
structure HttpRequest where
  url : Text
  ifNoneMatch : Option Text

structure HttpResponse where
  status : UInt16
  etag : Option (List UInt8)
  readToString : UInt64 → Except String Text

abbrev HttpClient := HttpRequest → Except String HttpResponse

/-- The client sends no request to a URL with such characters. -/
def HttpClient.ChecksUrls (client : HttpClient) : Prop :=
  ∀ request response, client request = .ok response → Clean request.url

inductive SyncOutcome where
  | unchanged
  | updated
  deriving DecidableEq

inductive SyncError where
  | config (source : ConfigError)
  | http (source : String)
  | status (status : UInt16)
  | feedJson (source : String)
  | feedEntry (source : ConfigError)
  | emptyFeed
  | io (path : String) (source : FileError)
  /-- The `expect` on the serialization of the managed file fails, and the pass panics. -/
  | panicked
  deriving DecidableEq

structure SyncReport (crates : WitnessCrates) where
  outcome : SyncOutcome
  entries : Option (List (LogConfig crates))

structure FeedTarget where
  feedUrl : Text
  managedPath : String
  etagPath : String

/-- The files of the state directory that a pass uses; `temp` is the temporary file. -/
structure StateDir where
  managed : File
  etag : File
  temp : File

/-- How `write_atomic` fails, if it does: at which call, and after how many bytes. `uncleaned`
says that the temporary file cannot be removed after that. -/
inductive WriteFault where
  | create
  | write (written : Nat)
  | sync
  | rename

/-- How `save_etag` fails: the file cannot be opened or removed, or its write stops short. -/
inductive EtagFault where
  | refused
  | torn (written : Nat)

structure Faults where
  write : Option WriteFault
  uncleaned : Bool
  etag : Option EtagFault

def Faults.none : Faults := ⟨.none, false, .none⟩

def defaultFeedUrl : Text := "https://mosskeys.com/api/witness/logs".toList

def etagFileName : Text := "discovered_logs.etag".toList

def maxFeedBytes : UInt64 := 1048576

def FeedTarget.fromConfig {crates : WitnessCrates} (config : LoadedConfig crates)
    (feedUrlOverride : Option Text) : FeedTarget where
  feedUrl := (feedUrlOverride <|> config.discovery.bind DiscoveryConfig.feedUrl).getD defaultFeedUrl
  managedPath := managedFilePath config.stateFile
  etagPath := Path.withFileName config.stateFile etagFileName

/-- `HeaderValue::to_str`: visible ASCII, spaces and tabs. -/
def headerText (value : List UInt8) : Option Text :=
  if value.all fun byte => (32 ≤ byte && byte < 127) || byte == 9 then
    some (value.map fun byte => Char.ofNat byte.toNat)
  else none

/-- The validator an ETag file holds. -/
def readEtag (file : File) : Option Text :=
  match readToString file with
  | .error _ => none
  | .ok text => if Strings.trim text = [] then none else some (Strings.trim text)

/-- The cached validator, unless the managed file is missing. -/
def cachedEtag (dir : StateDir) : Option Text :=
  if dir.managed = none then none else readEtag dir.etag

section Pass

variable (crates : SyncCrates)

def FeedLog.raw (entry : FeedLog) : RawLog :=
  ⟨entry.origin, [entry.vkeys.hybrid, entry.vkeys.ed25519]⟩

def parseFeed (body : Text) : Except SyncError (List (LogConfig crates.toWitnessCrates)) :=
  match crates.readFeed body with
  | .error e => .error (.feedJson e)
  | .ok feed =>
      if feed.logs = [] then .error .emptyFeed
      else match validateEntries crates.toConfigCrates (feed.logs.map FeedLog.raw) ∅ with
        | .error e => .error (.feedEntry e)
        | .ok logs => .ok logs

def entriesOf (logs : List (LogConfig crates.toWitnessCrates)) : List (Text × List Text) :=
  logs.map fun log => (log.origin, log.vkeys.map crates.encodeKey)

def managedFile (logs : List (LogConfig crates.toWitnessCrates)) : ManagedFile :=
  ⟨logs.map fun log => ⟨log.origin, log.vkeys.map crates.encodeKey⟩⟩

def precedenceNote : Text :=
  "Manual [[log]] stanzas in witness.toml take precedence over duplicate origins here.".toList

def commentLine (text : Text) : Text := '#' :: ' ' :: (text ++ ['\n'])

def managedHeader (feedUrl : Text) : Text :=
  commentLine "Managed by `mosskeys-witness sync` — do not edit.".toList ++
    (commentLine ("Feed: ".toList ++ feedUrl) ++
      (commentLine precedenceNote ++ ['\n']))

def renderManaged (logs : List (LogConfig crates.toWitnessCrates)) (feedUrl : Text) :
    Except SyncError Text :=
  match crates.writeManaged (managedFile crates logs) with
  | .error _ => .error .panicked
  | .ok body => .ok (managedHeader feedUrl ++ body)

/-- `write_atomic`, and the directory it leaves. -/
def writeAtomic (contents : List UInt8) (faults : Faults) (dir : StateDir) :
    Except FileError Unit × StateDir :=
  let cleaned (temp : File) : StateDir :=
    { dir with temp := if faults.uncleaned then temp else none }
  match faults.write with
  | some .create => (.error .create, cleaned dir.temp)
  | some (.write written) => (.error .write, cleaned (some (contents.take written)))
  | some .sync => (.error .sync, cleaned (some contents))
  | some .rename => (.error .rename, cleaned (some contents))
  | none => (.ok (), { dir with managed := some contents, temp := none })

def etagLine (etag : Text) : List UInt8 := Utf8.encode (etag ++ ['\n'])

/-- `save_etag`: a failure is only reported on the terminal. -/
def saveEtag (etag : Option Text) (fault : Option EtagFault) (dir : StateDir) : StateDir :=
  match etag, fault with
  | _, some .refused => dir
  | some etag, none => { dir with etag := some (etagLine etag) }
  | some etag, some (.torn written) => { dir with etag := some ((etagLine etag).take written) }
  | none, _ => { dir with etag := none }

/-- What a pass is about to do to the directory once its request is answered. -/
inductive Plan (crates : WitnessCrates) where
  | notModified
  | unchanged (logs : List (LogConfig crates)) (newEtag : Option Text)
  | rewrite (logs : List (LogConfig crates)) (contents : List UInt8) (newEtag : Option Text)

/-- The part of `sync_feed` before its first write: fetch, validate, compare, render. -/
def planSync (target : FeedTarget) (client : HttpClient) (dir : StateDir) :
    Except SyncError (Plan crates.toWitnessCrates) :=
  match client ⟨target.feedUrl, cachedEtag dir⟩ with
  | .error e => .error (.http e)
  | .ok response =>
      if response.status = 304 then .ok .notModified
      else if response.status = 200 then
        let newEtag := response.etag.bind headerText
        match response.readToString maxFeedBytes with
        | .error e => .error (.http e)
        | .ok body =>
            match parseFeed crates body with
            | .error e => .error e
            | .ok logs =>
                match loadManagedEntries crates.toConfigCrates target.managedPath dir.managed with
                | .error e => .error (.config e)
                | .ok existing =>
                    if existing.any fun entries => entriesOf crates entries = entriesOf crates logs
                    then .ok (.unchanged logs newEtag)
                    else match renderManaged crates logs target.feedUrl with
                      | .error e => .error e
                      | .ok text => .ok (.rewrite logs (Utf8.encode text) newEtag)
      else .error (.status response.status)

def syncFeed (target : FeedTarget) (client : HttpClient) (faults : Faults) (dir : StateDir) :
    Except SyncError (SyncReport crates.toWitnessCrates) × StateDir :=
  match planSync crates target client dir with
  | .error e => (.error e, dir)
  | .ok .notModified => (.ok ⟨.unchanged, none⟩, dir)
  | .ok (.unchanged logs newEtag) =>
      (.ok ⟨.unchanged, some logs⟩, saveEtag newEtag faults.etag dir)
  | .ok (.rewrite logs contents newEtag) =>
      match writeAtomic contents faults dir with
      | (.error e, dir) => (.error (.io target.managedPath e), dir)
      | (.ok (), dir) => (.ok ⟨.updated, some logs⟩, saveEtag newEtag faults.etag dir)

def sync (configPath : String) (configFile : File) (feedUrlOverride : Option Text)
    (client : HttpClient) (faults : Faults) (dir : StateDir) :
    Except SyncError SyncOutcome × StateDir :=
  match load crates.toConfigCrates configPath configFile dir.managed with
  | .error e => (.error (.config e), dir)
  | .ok config =>
      match syncFeed crates (.fromConfig config feedUrlOverride) client faults dir with
      | (.error e, dir) => (.error e, dir)
      | (.ok report, dir) => (.ok report.outcome, dir)

/-- The exit-code contract of `run_sync`; a panic ends the process with 101. -/
def exitCode : Except SyncError SyncOutcome → UInt8
  | .ok .unchanged => 0
  | .ok .updated => 10
  | .error .panicked => 101
  | .error _ => 1

end Pass

section Spec

variable {crates : SyncCrates}

@[simp] theorem saveEtag_managed (etag : Option Text) (fault : Option EtagFault)
    (dir : StateDir) : (saveEtag etag fault dir).managed = dir.managed := by
  unfold saveEtag
  split <;> rfl

theorem writeAtomic_error {contents : List UInt8} {faults : Faults} {dir after : StateDir}
    {e : FileError} (failed : writeAtomic contents faults dir = (.error e, after)) :
    ∃ temp, after = { dir with temp := temp } := by
  unfold writeAtomic at failed
  dsimp only at failed
  split at failed <;> cases failed <;> exact ⟨_, rfl⟩

theorem writeAtomic_ok {contents : List UInt8} {faults : Faults} {dir after : StateDir}
    (written : writeAtomic contents faults dir = (.ok (), after)) :
    after = { dir with managed := some contents, temp := none } := by
  unfold writeAtomic at written
  dsimp only at written
  split at written <;> cases written
  rfl

/-- The feed's entries, validated. -/
structure FeedSet (body : Text) (logs : List (LogConfig crates.toWitnessCrates)) (feed : Feed) :
    Prop where
  read : crates.readFeed body = .ok feed
  entries : List.Forall₂ Validates (feed.logs.map FeedLog.raw) logs
  distinct : Distinct logs
  nonempty : logs ≠ []

theorem parseFeed_ok {body : Text} {logs : List (LogConfig crates.toWitnessCrates)}
    (parsed : parseFeed crates body = .ok logs) : ∃ feed, FeedSet body logs feed := by
  unfold parseFeed at parsed
  split at parsed
  · cases parsed
  · rename_i feed read
    split_ifs at parsed with empty
    split at parsed
    · cases parsed
    · rename_i valid
      cases parsed
      obtain ⟨pairs, distinct, -⟩ := validateEntries_ok_iff.mp valid
      refine ⟨feed, read, pairs, ?_, ?_⟩
      · rw [Distinct, origins_of_validates pairs]
        exact distinct
      · intro none
        rw [none, List.forall₂_nil_right_iff, List.map_eq_nil_iff] at pairs
        exact empty pairs

theorem parseFeed_of_valid {body : Text} {feed : Feed}
    {logs : List (LogConfig crates.toWitnessCrates)} (read : crates.readFeed body = .ok feed)
    (nonempty : feed.logs ≠ [])
    (valid : validateEntries crates.toConfigCrates (feed.logs.map FeedLog.raw) ∅ = .ok logs) :
    parseFeed crates body = .ok logs := by
  unfold parseFeed
  rw [read]
  dsimp only
  rw [if_neg nonempty, valid]

/-- The feed answered with a set that passes validation. -/
structure Fetched (target : FeedTarget) (client : HttpClient) (dir : StateDir)
    (logs : List (LogConfig crates.toWitnessCrates)) (newEtag : Option Text)
    (response : HttpResponse) (body : Text) : Prop where
  answered : client ⟨target.feedUrl, cachedEtag dir⟩ = .ok response
  ok : response.status = 200
  read : response.readToString maxFeedBytes = .ok body
  parsed : parseFeed crates body = .ok logs
  validator : newEtag = response.etag.bind headerText

/-- How each plan comes about. -/
inductive Plans (target : FeedTarget) (client : HttpClient) (dir : StateDir) :
    Plan crates.toWitnessCrates → Prop
  | notModified {response} :
      client ⟨target.feedUrl, cachedEtag dir⟩ = .ok response → response.status = 304 →
      Plans target client dir .notModified
  | unchanged {logs newEtag response body existing} :
      Fetched target client dir logs newEtag response body →
      loadManagedEntries crates.toConfigCrates target.managedPath dir.managed =
        .ok (some existing) →
      entriesOf crates existing = entriesOf crates logs →
      Plans target client dir (.unchanged logs newEtag)
  | rewrite {logs newEtag response body existing text} :
      Fetched target client dir logs newEtag response body →
      loadManagedEntries crates.toConfigCrates target.managedPath dir.managed = .ok existing →
      (∀ entries, existing = some entries → entriesOf crates entries ≠ entriesOf crates logs) →
      renderManaged crates logs target.feedUrl = .ok text →
      Plans target client dir (.rewrite logs (Utf8.encode text) newEtag)

theorem Plans.planned {target : FeedTarget} {client : HttpClient} {dir : StateDir}
    {plan : Plan crates.toWitnessCrates} (plans : Plans target client dir plan) :
    planSync crates target client dir = .ok plan := by
  cases plans with
  | notModified answered cached => simp [planSync, answered, cached]
  | unchanged fetched loaded same =>
      simp [planSync, fetched.answered, fetched.ok, fetched.read, fetched.parsed, loaded, same,
        fetched.validator]
  | @rewrite logs newEtag response body existing text fetched loaded other rendered =>
      have differs : ¬ (existing.any fun entries =>
          decide (entriesOf crates entries = entriesOf crates logs)) = true := by
        cases existing with
        | none => simp
        | some entries => simp [other entries rfl]
      simp [planSync, fetched.answered, fetched.ok, fetched.read, fetched.parsed, loaded,
        if_neg differs, rendered, fetched.validator]

theorem planSync_ok {target : FeedTarget} {client : HttpClient} {dir : StateDir}
    {plan : Plan crates.toWitnessCrates} (planned : planSync crates target client dir = .ok plan) :
    Plans target client dir plan := by
  unfold planSync at planned
  split at planned
  · cases planned
  · rename_i response answered
    split_ifs at planned with cached ok
    · cases planned
      exact .notModified answered cached
    · dsimp only at planned
      split at planned
      · cases planned
      · rename_i body read
        split at planned
        · cases planned
        · rename_i logs parsed
          have fetched : Fetched target client dir logs (response.etag.bind headerText) response
              body := ⟨answered, ok, read, parsed, rfl⟩
          split at planned
          · cases planned
          · rename_i existing loaded
            split_ifs at planned with same
            · cases planned
              cases existing with
              | none => cases same
              | some entries => exact .unchanged fetched loaded (of_decide_eq_true same)
            · split at planned
              · cases planned
              · rename_i text rendered
                cases planned
                refine .rewrite fetched loaded ?_ rendered
                intro entries held equal
                subst held
                exact same (decide_eq_true equal)

/-- The ways a pass can go, by its plan and its write. -/
inductive Pass (target : FeedTarget) (client : HttpClient) (faults : Faults) (dir : StateDir) :
    Except SyncError (SyncReport crates.toWitnessCrates) → StateDir → Prop
  | unplanned {error} : planSync crates target client dir = .error error →
      Pass target client faults dir (.error error) dir
  | notModified : planSync crates target client dir = .ok .notModified →
      Pass target client faults dir (.ok ⟨.unchanged, none⟩) dir
  | unchanged {logs newEtag} : planSync crates target client dir = .ok (.unchanged logs newEtag) →
      Pass target client faults dir (.ok ⟨.unchanged, some logs⟩)
        (saveEtag newEtag faults.etag dir)
  | unwritten {logs contents newEtag error} (temp : File) :
      planSync crates target client dir = .ok (.rewrite logs contents newEtag) →
      Pass target client faults dir (.error (.io target.managedPath error))
        { dir with temp := temp }
  | rewritten {logs contents newEtag} :
      planSync crates target client dir = .ok (.rewrite logs contents newEtag) →
      Pass target client faults dir (.ok ⟨.updated, some logs⟩)
        (saveEtag newEtag faults.etag { dir with managed := some contents, temp := none })

theorem syncFeed_pass {target : FeedTarget} {client : HttpClient} {faults : Faults}
    {dir after : StateDir} {result : Except SyncError (SyncReport crates.toWitnessCrates)}
    (ran : syncFeed crates target client faults dir = (result, after)) :
    Pass target client faults dir result after := by
  unfold syncFeed at ran
  split at ran
  · rename_i planned
    cases ran
    exact .unplanned planned
  · rename_i planned
    cases ran
    exact .notModified planned
  · rename_i planned
    cases ran
    exact .unchanged planned
  · rename_i planned
    split at ran
    · rename_i refused
      cases ran
      obtain ⟨temp, same⟩ := writeAtomic_error refused
      rw [same]
      exact .unwritten temp planned
    · rename_i written
      cases ran
      rw [writeAtomic_ok written]
      exact .rewritten planned

theorem syncFeed_ok {target : FeedTarget} {client : HttpClient} {faults : Faults}
    {dir after : StateDir} {report : SyncReport crates.toWitnessCrates}
    (passed : syncFeed crates target client faults dir = (.ok report, after)) :
    (report = ⟨.unchanged, none⟩ ∧ after = dir ∧
        ∃ response, client ⟨target.feedUrl, cachedEtag dir⟩ = .ok response ∧
          response.status = 304) ∨
      ∃ logs newEtag response body, report.entries = some logs ∧
        Fetched target client dir logs newEtag response body := by
  cases syncFeed_pass passed with
  | notModified planned =>
      cases planSync_ok planned with
      | notModified answered cached => exact Or.inl ⟨rfl, rfl, _, answered, cached⟩
  | unchanged planned =>
      cases planSync_ok planned with
      | unchanged fetched _ _ => exact Or.inr ⟨_, _, _, _, rfl, fetched⟩
  | rewritten planned =>
      cases planSync_ok planned with
      | rewrite fetched _ _ _ => exact Or.inr ⟨_, _, _, _, rfl, fetched⟩

end Spec

end MosskeysWitness
