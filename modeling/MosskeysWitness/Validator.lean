import MosskeysWitness.ChangeCheck

/-! The ETag cache beside the managed file, over every sequence of passes on one state
directory. -/

namespace MosskeysWitness

/-- What a feed serves at one time. -/
structure Version where
  etag : Option (List UInt8)
  body : Text

def Version.validator (version : Version) : Option Text := version.etag.bind headerText

/-- The request carries the current ETag. -/
def Current (request : HttpRequest) (version : Version) : Prop :=
  request.ifNoneMatch.isSome ∧ request.ifNoneMatch = version.validator

/-- The client's feeds answer 304 exactly to their current ETag, and else with their body. Requests
may fail, and other statuses are left open. -/
structure Conforms (serves : Text → Version) (client : HttpClient) : Prop where
  notModified : ∀ request response, client request = .ok response → response.status = 304 →
    Current request (serves request.url)
  ok : ∀ request response, client request = .ok response → response.status = 200 →
    ¬ Current request (serves request.url) ∧ response.etag = (serves request.url).etag ∧
      ∀ body, response.readToString maxFeedBytes = .ok body → body = (serves request.url).body

/-- All versions each feed serves at some time. -/
abbrev Feeds := Text → Version → Prop

section Passes

variable (crates : SyncCrates)

/-- Within one feed, equal ETags mean equal sets of logs. -/
def Consistent (feeds : Feeds) : Prop :=
  ∀ url version other, feeds url version → feeds url other → version.etag.isSome →
    version.etag = other.etag → ∀ logs, parseFeed crates version.body = .ok logs →
      ∃ logs', parseFeed crates other.body = .ok logs' ∧ SameAllowlist logs logs'

/-- The feeds as a pass finds them. -/
structure Publishes (feeds : Feeds) (serves : Text → Version) (client : HttpClient) : Prop where
  published : ∀ url, feeds url (serves url)
  conforms : Conforms serves client
  checks : client.ChecksUrls

/-- What a pass that is cut off at any point, or that finishes, leaves in the directory. -/
inductive CutOff (target : FeedTarget) (client : HttpClient) (dir : StateDir) : StateDir → Prop
  | untouched : CutOff target client dir dir
  | writing {logs contents newEtag} (temp : File) :
      planSync crates target client dir = .ok (.rewrite logs contents newEtag) →
      CutOff target client dir { dir with temp := temp }
  | rewritten {logs contents newEtag} (fault : Option EtagFault) :
      planSync crates target client dir = .ok (.rewrite logs contents newEtag) →
      CutOff target client dir
        (saveEtag newEtag fault { dir with managed := some contents, temp := none })
  | kept {logs newEtag} (fault : Option EtagFault) :
      planSync crates target client dir = .ok (.unchanged logs newEtag) →
      CutOff target client dir (saveEtag newEtag fault dir)

/-- A directory, and the feed that sent the cached validator together with the set in the managed
file. There is none once the managed file was rewritten without its validator, or when the
validator is torn. -/
structure Cache where
  dir : StateDir
  issuer : Option Text

def issuerAfter (target : FeedTarget) (client : HttpClient) (cache : Cache) (after : StateDir) :
    Option Text :=
  match planSync crates target client cache.dir with
  | .ok (.unchanged _ newEtag) =>
      if newEtag.isSome ∧ readEtag after.etag = newEtag then some target.feedUrl
      else if after.etag = cache.dir.etag then cache.issuer
      else none
  | .ok (.rewrite _ contents newEtag) =>
      if after.managed ≠ some contents then cache.issuer
      else if newEtag.isSome ∧ readEtag after.etag = newEtag then some target.feedUrl
      else none
  | _ => cache.issuer

/-- Sequences of passes on one directory, of any targets, with any faults, and cut off anywhere.
They start on any directory, also on what a power loss left of one. -/
inductive Passes (feeds : Feeds) : Cache → Prop
  | start (dir : StateDir) : Passes feeds ⟨dir, none⟩
  | pass {cache target client serves} (faults : Faults) :
      Passes feeds cache → Publishes feeds serves client →
      Passes feeds ⟨(syncFeed crates target client faults cache.dir).2,
        issuerAfter crates target client cache (syncFeed crates target client faults cache.dir).2⟩
  | cut {cache target client serves after} :
      Passes feeds cache → Publishes feeds serves client →
      CutOff crates target client cache.dir after →
      Passes feeds ⟨after, issuerAfter crates target client cache after⟩

end Passes

/-- The pass does not send the feed its current ETag, unless that ETag came from this feed together
with the set in the managed file. -/
def Vouched (cache : Cache) (target : FeedTarget) (serves : Text → Version) : Prop :=
  Current ⟨target.feedUrl, cachedEtag cache.dir⟩ (serves target.feedUrl) →
    cache.issuer = some target.feedUrl

variable {crates : SyncCrates} {feeds : Feeds}

theorem headerText_bytes {value : List UInt8} {text : Text} (shown : headerText value = some text) :
    value = text.map fun scalar => UInt8.ofNat scalar.toNat := by
  have back : ∀ byte : UInt8, UInt8.ofNat (Char.ofNat byte.toNat).toNat = byte := by
    intro byte
    have small : byte.toNat < 256 := byte.toNat_lt
    have valid : byte.toNat.isValidChar := Or.inl (by omega)
    have code : (Char.ofNat byte.toNat).toNat = byte.toNat := by
      rw [Char.ofNat, dif_pos valid]
      rfl
    rw [code, UInt8.ofNat_toNat]
  unfold headerText at shown
  split_ifs at shown
  cases shown
  rw [List.map_map]
  exact (List.map_id'' back value).symm

theorem Version.etag_eq {version other : Version} {text : Text}
    (first : version.validator = some text) (second : other.validator = some text) :
    version.etag.isSome ∧ version.etag = other.etag := by
  obtain ⟨bytes, held, shown⟩ := Option.bind_eq_some_iff.mp first
  obtain ⟨bytes', held', shown'⟩ := Option.bind_eq_some_iff.mp second
  rw [held, held', headerText_bytes shown, headerText_bytes shown']
  exact ⟨rfl, rfl⟩

theorem syncFeed_cutOff (target : FeedTarget) (client : HttpClient) (faults : Faults)
    (dir : StateDir) :
    CutOff crates target client dir (syncFeed crates target client faults dir).2 := by
  generalize ran : syncFeed crates target client faults dir = pass
  rcases pass with ⟨result, after⟩
  cases syncFeed_pass ran with
  | unplanned => exact .untouched
  | notModified => exact .untouched
  | unchanged planned => exact .kept faults.etag planned
  | unwritten temp planned => exact .writing temp planned
  | rewritten planned => exact .rewritten faults.etag planned

namespace CutOff

variable {target : FeedTarget} {client : HttpClient} {dir after : StateDir}
  {logs : List (LogConfig crates.toWitnessCrates)} {contents : List UInt8} {newEtag : Option Text}

theorem of_unchanged (left : CutOff crates target client dir after)
    (planned : planSync crates target client dir = .ok (.unchanged logs newEtag)) :
    after.managed = dir.managed := by
  cases left with
  | untouched => rfl
  | writing temp other => rfl
  | rewritten fault other =>
      rw [planned] at other
      cases other
  | kept fault other => exact saveEtag_managed _ _ _

theorem of_rewrite (left : CutOff crates target client dir after)
    (planned : planSync crates target client dir = .ok (.rewrite logs contents newEtag)) :
    after.managed = some contents ∨
      after.managed = dir.managed ∧ after.etag = dir.etag := by
  cases left with
  | untouched => exact Or.inr ⟨rfl, rfl⟩
  | writing temp other => exact Or.inr ⟨rfl, rfl⟩
  | rewritten fault other =>
      rw [planned] at other
      cases other
      exact Or.inl (saveEtag_managed _ _ _)
  | kept fault other =>
      rw [planned] at other
      cases other

theorem of_other (left : CutOff crates target client dir after)
    (kept : ∀ logs newEtag, planSync crates target client dir ≠ .ok (.unchanged logs newEtag))
    (rewritten : ∀ logs contents newEtag,
      planSync crates target client dir ≠ .ok (.rewrite logs contents newEtag)) :
    after = dir := by
  cases left with
  | untouched => rfl
  | writing temp planned => exact absurd planned (rewritten _ _ _)
  | rewritten fault planned => exact absurd planned (rewritten _ _ _)
  | kept fault planned => exact absurd planned (kept _ _)

end CutOff

section Invariant

variable {target : FeedTarget} {client : HttpClient} {serves : Text → Version}

theorem Fetched.current (serving : Publishes feeds serves client) {dir : StateDir}
    {logs : List (LogConfig crates.toWitnessCrates)} {newEtag : Option Text}
    {response : HttpResponse} {body : Text}
    (fetched : Fetched target client dir logs newEtag response body) :
    parseFeed crates (serves target.feedUrl).body = .ok logs ∧
      newEtag = (serves target.feedUrl).validator := by
  obtain ⟨-, etag, same⟩ := serving.conforms.ok _ _ fetched.answered fetched.ok
  refine ⟨?_, ?_⟩
  · rw [← same _ fetched.read]
    exact fetched.parsed
  · rw [fetched.validator, etag]
    rfl

/-- The cached validator of a known issuer is one of its ETags, sent with the set that the managed
file holds. -/
def Cache.Valid (crates : SyncCrates) (feeds : Feeds) (cache : Cache) : Prop :=
  ∀ url, cache.issuer = some url → ∃ version logs, feeds url version ∧
    readEtag cache.dir.etag = version.validator ∧ parseFeed crates version.body = .ok logs ∧
    ∀ path, loadManagedEntries crates.toConfigCrates path cache.dir.managed = .ok (some logs)

theorem Cache.Valid.cut (laws : crates.RoundTrips) {cache : Cache} {after : StateDir}
    (valid : cache.Valid crates feeds) (serving : Publishes feeds serves client)
    (left : CutOff crates target client cache.dir after) :
    Cache.Valid crates feeds ⟨after, issuerAfter crates target client cache after⟩ := by
  intro url issued
  unfold issuerAfter at issued
  split at issued
  · rename_i logs newEtag planned
    -- The managed file is left alone, and has what was fetched.
    have managed : after.managed = cache.dir.managed := left.of_unchanged planned
    split_ifs at issued with saved same
    · cases issued
      cases planSync_ok planned with
      | unchanged fetched loaded equal =>
          obtain ⟨parsed, validator⟩ := fetched.current serving
          refine ⟨serves target.feedUrl, logs, serving.published _, ?_, parsed, ?_⟩
          · rw [saved.2, validator]
          · intro path
            rw [managed, loadManagedEntries_path loaded path, entriesOf_injective laws equal]
    · obtain ⟨version, logs', published, validator, parsed, loaded⟩ := valid url issued
      refine ⟨version, logs', published, ?_, parsed, ?_⟩
      · rw [same, validator]
      · intro path
        rw [managed, loaded path]
  · rename_i logs contents newEtag planned
    split_ifs at issued with renamed saved
    · have untouched : after.managed = cache.dir.managed ∧ after.etag = cache.dir.etag :=
        (left.of_rewrite planned).resolve_left renamed
      obtain ⟨version, logs', published, validator, parsed, loaded⟩ := valid url issued
      refine ⟨version, logs', published, ?_, parsed, ?_⟩
      · rw [untouched.2, validator]
      · intro path
        rw [untouched.1, loaded path]
    · cases issued
      have written : after.managed = some contents := not_not.mp renamed
      cases planSync_ok planned with
      | rewrite fetched loaded other rendered =>
          obtain ⟨parsed, validator⟩ := fetched.current serving
          obtain ⟨feed, set⟩ := parseFeed_ok parsed
          have clean := serving.checks _ _ fetched.answered
          refine ⟨serves target.feedUrl, logs, serving.published _, ?_, parsed, ?_⟩
          · rw [saved.2, validator]
          · intro path
            rw [written, loads_rendered laws set.distinct clean rendered path]
  · rename_i kept rewritten
    rw [left.of_other kept rewritten]
    exact valid url issued

theorem Passes.valid (laws : crates.RoundTrips) {cache : Cache}
    (passes : Passes crates feeds cache) : cache.Valid crates feeds := by
  induction passes with
  | start dir =>
      intro url issued
      cases issued
  | pass faults _ serving ih => exact ih.cut laws serving (syncFeed_cutOff _ _ faults _)
  | cut _ serving left ih => exact ih.cut laws serving left

theorem Passes.passed {cache : Cache} (passes : Passes crates feeds cache)
    (serving : Publishes feeds serves client) {faults : Faults}
    {result : Except SyncError (SyncReport crates.toWitnessCrates)} {after : StateDir}
    (ran : syncFeed crates target client faults cache.dir = (result, after)) :
    Passes crates feeds ⟨after, issuerAfter crates target client cache after⟩ := by
  have left : Passes crates feeds ⟨(syncFeed crates target client faults cache.dir).2,
      issuerAfter crates target client cache (syncFeed crates target client faults cache.dir).2⟩ :=
    passes.pass faults serving
  rwa [ran] at left

theorem issuerAfter_written {cache : Cache} {after : StateDir}
    {logs : List (LogConfig crates.toWitnessCrates)} {contents : List UInt8}
    {newEtag : Option Text}
    (planned : planSync crates target client cache.dir = .ok (.rewrite logs contents newEtag))
    (written : after.managed = some contents) :
    issuerAfter crates target client cache after =
      if newEtag.isSome ∧ readEtag after.etag = newEtag then some target.feedUrl else none := by
  rw [issuerAfter, planned]
  exact if_neg (not_not.mpr written)

end Invariant

/-- After a pass that returns Ok, the managed file has the set the feed serves, when the pass sent
no validator it could not vouch for. -/
theorem managed_file_is_current (laws : crates.RoundTrips) (consistent : Consistent crates feeds)
    {cache : Cache} (passes : Passes crates feeds cache) {target : FeedTarget}
    {client : HttpClient} {serves : Text → Version} (serving : Publishes feeds serves client)
    (vouched : Vouched cache target serves) {faults : Faults} {after : StateDir}
    {report : SyncReport crates.toWitnessCrates}
    (passed : syncFeed crates target client faults cache.dir = (.ok report, after)) :
    ∃ entries logs,
      loadManagedEntries crates.toConfigCrates target.managedPath after.managed =
        .ok (some entries) ∧
      parseFeed crates (serves target.feedUrl).body = .ok logs ∧ SameAllowlist entries logs := by
  rcases syncFeed_ok passed with ⟨-, same, response, answered, cached⟩ |
    ⟨logs, newEtag, response, body, entries, fetched⟩
  · -- A 304: the validator is the current ETag, so it is vouched for.
    have current := serving.conforms.notModified _ _ answered cached
    obtain ⟨version, logs, published, validator, parsed, loaded⟩ :=
      passes.valid laws _ (vouched current)
    obtain ⟨text, sent⟩ := Option.isSome_iff_exists.mp current.1
    dsimp only at sent
    have held : cachedEtag cache.dir = readEtag cache.dir.etag := by
      rw [cachedEtag] at sent ⊢
      split_ifs at sent ⊢ with absent
      rfl
    have first : version.validator = some text := by rw [← validator, ← held, sent]
    have second : (serves target.feedUrl).validator = some text := by
      rw [← current.2]
      exact sent
    obtain ⟨tagged, equal⟩ := Version.etag_eq first second
    obtain ⟨logs', parsed', alike⟩ :=
      consistent _ version _ published (serving.published _) tagged equal logs parsed
    exact ⟨logs, logs', by rw [same, loaded], parsed', alike⟩
  · obtain ⟨parsed, -⟩ := fetched.current serving
    have clean := serving.checks _ _ fetched.answered
    exact ⟨logs, logs, loads_after laws clean passed entries, parsed, SameAllowlist.refl logs⟩

namespace Reference

def feedTarget : FeedTarget := ⟨feedUrl, "managed", "etag"⟩

def tagged (etag : Text) (served : List Listed) : Version :=
  ⟨some (Utf8.encode etag), feedBody served⟩

def firstTag : Text := "\"v1\"".toList

def secondTag : Text := "\"v2\"".toList

/-- Every feed serves one log at some times and another one at others. -/
def twoVersions : Feeds := fun _ version =>
  version = tagged firstTag [alpha] ∨ version = tagged secondTag [beta]

theorem feedClient_conforms {etag : Text} (shown : headerText (Utf8.encode etag) = some etag)
    (served : List Listed) :
    Conforms (fun _ => tagged etag served) (feedClient (some etag) (feedBody served)) := by
  have validator : (tagged etag served).validator = some etag := shown
  constructor
  · intro request response answered cached
    rw [feedClient] at answered
    split_ifs at answered with clean matched
    · rw [Current, validator, matched.2]
      exact ⟨rfl, rfl⟩
    · cases answered
      cases cached
  · intro request response answered ok
    rw [feedClient] at answered
    split_ifs at answered with clean matched
    · cases answered
      cases ok
    · cases answered
      refine ⟨?_, rfl, ?_⟩
      · intro current
        rw [Current, validator] at current
        exact matched ⟨rfl, current.2⟩
      · intro body read
        cases read
        rfl

theorem twoVersions_consistent : Consistent (syncCrates entries) twoVersions := by
  have apart : (tagged firstTag [alpha]).etag ≠ (tagged secondTag [beta]).etag := by decide
  intro url version other first second _ same logs parsed
  rcases first with rfl | rfl <;> rcases second with rfl | rfl
  · exact ⟨logs, parsed, SameAllowlist.refl logs⟩
  · exact absurd same apart
  · exact absurd same.symm apart
  · exact ⟨logs, parsed, SameAllowlist.refl logs⟩

def firstClient : HttpClient := feedClient (some firstTag) (feedBody [alpha])

def secondClient : HttpClient := feedClient (some secondTag) (feedBody [beta])

theorem publishes_first : Publishes twoVersions (fun _ => tagged firstTag [alpha]) firstClient :=
  ⟨fun _ => Or.inl rfl, feedClient_conforms (by decide) _, feedClient_checksUrls _ _⟩

theorem publishes_second : Publishes twoVersions (fun _ => tagged secondTag [beta]) secondClient :=
  ⟨fun _ => Or.inr rfl, feedClient_conforms (by decide) _, feedClient_checksUrls _ _⟩

theorem feedClient_modified {etag body : Text} {ifNoneMatch : Option Text}
    (other : ifNoneMatch ≠ some etag) :
    feedClient (some etag) body ⟨feedUrl, ifNoneMatch⟩ =
      .ok ⟨200, some (Utf8.encode etag), fun _ => .ok body⟩ := by
  have clean : Clean (HttpRequest.mk feedUrl ifNoneMatch).url := by
    change Clean feedUrl
    decide
  have unmatched : ¬ ((some etag).isSome ∧
      (HttpRequest.mk feedUrl ifNoneMatch).ifNoneMatch = some etag) := fun matched =>
    other matched.2
  rw [feedClient, if_pos clean, if_neg unmatched]
  rfl

theorem feedClient_unmodified (etag body : Text) :
    feedClient (some etag) body ⟨feedUrl, some etag⟩ = .ok ⟨304, none, fun _ => .ok []⟩ := by
  have clean : Clean (HttpRequest.mk feedUrl (some etag)).url := by
    change Clean feedUrl
    decide
  rw [feedClient, if_pos clean, if_pos ⟨rfl, rfl⟩]

theorem pass_installs {etag : Text} (shown : headerText (Utf8.encode etag) = some etag)
    {served : List Listed} (nonempty : served ≠ []) (distinct : (served.map Listed.origin).Nodup)
    {dir : StateDir} (other : cachedEtag dir ≠ some etag)
    {existing : Option (List (LogConfig witnessCrates))}
    (loaded : loadManagedEntries (syncCrates entries).toConfigCrates feedTarget.managedPath
      dir.managed = .ok existing) (differs : existing ≠ some (served.map Listed.log)) :
    planSync (syncCrates entries) feedTarget (feedClient (some etag) (feedBody served)) dir =
        .ok (.rewrite (served.map Listed.log) (managedBytes served) (some etag)) ∧
      ∀ fault, syncFeed (syncCrates entries) feedTarget
          (feedClient (some etag) (feedBody served)) ⟨none, false, fault⟩ dir =
        (.ok ⟨.updated, some (served.map Listed.log)⟩, saveEtag (some etag) fault
          { dir with managed := some (managedBytes served), temp := none }) := by
  have answered : feedClient (some etag) (feedBody served) ⟨feedUrl, cachedEtag dir⟩ = _ :=
    feedClient_modified other
  have parsed := parseFeed_feedBody entries nonempty distinct
  obtain ⟨text, rendered, planned, passed⟩ :=
    pass_writes (syncCrates_roundTrips entries) ⟨answered, rfl, rfl, parsed, shown.symm⟩ loaded
      differs
  cases rendered
  exact ⟨planned, passed⟩

theorem readEtag_line {etag : Text} (solid : Strings.trim (etag ++ ['\n']) = etag)
    (nonempty : etag ≠ []) : readEtag (some (etagLine etag)) = some etag := by
  rw [readEtag, etagLine, readToString_encode]
  simp only [solid, if_neg nonempty]

theorem readEtag_first : readEtag (some (etagLine firstTag)) = some firstTag :=
  readEtag_line (by decide) (by decide)

def firstDir : StateDir := ⟨some (managedBytes [alpha]), some (etagLine firstTag), none⟩

/-- The directory after a pass over the second version whose ETag write failed. -/
def secondDir : StateDir := ⟨some (managedBytes [beta]), some (etagLine firstTag), none⟩

theorem cachedEtag_firstDir : cachedEtag firstDir = some firstTag :=
  (if_neg (Option.some_ne_none _)).trans readEtag_first

theorem cachedEtag_secondDir : cachedEtag secondDir = some firstTag :=
  (if_neg (Option.some_ne_none _)).trans readEtag_first

theorem passes_first : Passes (syncCrates entries) twoVersions ⟨firstDir, some feedUrl⟩ := by
  have bare : cachedEtag ⟨none, none, none⟩ ≠ some firstTag := by decide
  obtain ⟨planned, passed⟩ := pass_installs (by decide) (List.cons_ne_nil alpha []) (by decide)
    bare rfl (Option.some_ne_none _).symm
  have begun : Passes (syncCrates entries) twoVersions ⟨⟨none, none, none⟩, none⟩ := .start _
  have next : Passes (syncCrates entries) twoVersions ⟨firstDir, _⟩ :=
    begun.passed publishes_first (passed none)
  have issuer : issuerAfter (syncCrates entries) feedTarget firstClient ⟨⟨none, none, none⟩, none⟩
      firstDir = _ := issuerAfter_written planned rfl
  rwa [issuer, if_pos ⟨rfl, readEtag_first⟩] at next

theorem alpha_ne_beta : (alpha.log : LogConfig witnessCrates) ≠ beta.log := by
  intro same
  exact absurd (congrArg LogConfig.origin same) (by decide)

theorem passes_second : Passes (syncCrates entries) twoVersions ⟨secondDir, none⟩ := by
  have other : cachedEtag firstDir ≠ some secondTag := by
    rw [cachedEtag_firstDir]
    decide
  have loaded := loads_managedBytes (by decide : ([alpha].map Listed.origin).Nodup)
    feedTarget.managedPath
  have differs : some [alpha.log] ≠ some [(beta.log : LogConfig witnessCrates)] := by
    intro same
    exact alpha_ne_beta (List.head_eq_of_cons_eq (Option.some.inj same))
  obtain ⟨planned, passed⟩ := pass_installs (by decide) (List.cons_ne_nil beta []) (by decide)
    other loaded differs
  have next : Passes (syncCrates entries) twoVersions ⟨secondDir, _⟩ :=
    passes_first.passed publishes_second (passed (some .refused))
  have issuer : issuerAfter (syncCrates entries) feedTarget secondClient ⟨firstDir, some feedUrl⟩
      secondDir = _ := issuerAfter_written planned rfl
  have stale : ¬ ((some secondTag).isSome ∧ readEtag secondDir.etag = some secondTag) := by
    intro saved
    have same := readEtag_first.symm.trans saved.2
    exact absurd same (by decide)
  rwa [issuer, if_neg stale] at next

theorem pass_cached {etag : Text} {dir : StateDir} (cached : cachedEtag dir = some etag)
    (body : Text) (faults : Faults) :
    syncFeed (syncCrates entries) feedTarget (feedClient (some etag) body) faults dir =
      (.ok ⟨.unchanged, none⟩, dir) := by
  have answered : feedClient (some etag) body ⟨feedTarget.feedUrl, cachedEtag dir⟩ =
      .ok ⟨304, none, fun _ => .ok []⟩ := by
    rw [cached]
    exact feedClient_unmodified etag body
  have planned : planSync (syncCrates entries) feedTarget (feedClient (some etag) body) dir =
      .ok .notModified := (Plans.notModified answered rfl).planned
  simp only [syncFeed, planned]

end Reference

open Reference

/-- A second pass over an unchanged feed, under the validator the first one cached. -/
theorem cached_pass_is_current : ∃ entries' logs,
    loadManagedEntries (syncCrates entries).toConfigCrates feedTarget.managedPath
        firstDir.managed = .ok (some entries') ∧
      parseFeed (syncCrates entries) (tagged firstTag [alpha]).body = .ok logs ∧
      SameAllowlist entries' logs :=
  managed_file_is_current (syncCrates_roundTrips entries) twoVersions_consistent passes_first
    publishes_first (fun _ => rfl) (pass_cached cachedEtag_firstDir (feedBody [alpha]) .none)

/-- The ETag write of the second pass fails, the feed changes back, and the third pass is answered
with a 304 over the second version's file. -/
theorem reverted_feed_keeps_stale_file : Consistent (syncCrates entries) twoVersions ∧
    Publishes twoVersions (fun _ => tagged firstTag [alpha]) firstClient ∧ ∃ cache : Cache,
    Passes (syncCrates entries) twoVersions cache ∧
    syncFeed (syncCrates entries) feedTarget firstClient .none cache.dir =
      (.ok ⟨.unchanged, none⟩, cache.dir) ∧
    loadManagedEntries (syncCrates entries).toConfigCrates feedTarget.managedPath
      cache.dir.managed = .ok (some [beta.log]) ∧
    parseFeed (syncCrates entries) (tagged firstTag [alpha]).body = .ok [alpha.log] ∧
    ¬ SameAllowlist [beta.log] [(alpha.log : LogConfig witnessCrates)] := by
  refine ⟨twoVersions_consistent, publishes_first, ⟨secondDir, none⟩, passes_second, ?_, ?_, ?_, ?_⟩
  · exact pass_cached cachedEtag_secondDir (feedBody [alpha]) .none
  · exact loads_managedBytes (by decide : ([beta].map Listed.origin).Nodup) _
  · exact parseFeed_feedBody entries (List.cons_ne_nil alpha []) (by decide)
  · intro same
    obtain ⟨log, member, alike⟩ := same.1 _ (List.mem_singleton_self _)
    rw [List.mem_singleton.mp member] at alike
    exact absurd alike.1 (by decide)

end MosskeysWitness
