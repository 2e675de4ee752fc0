import MosskeysWitness.Startup
import MosskeysWitness.Validator

/-! Whether a host that a witness once came up on is still one that it comes up on, after any runs
of the witness and of the feed's passes, and however they ended; and what a copy of its state file
is good for. -/

namespace MosskeysWitness

open Relation (ReflTransGen)

namespace Server

structure Deployment (crates : WitnessCrates) where
  world : World crates
  dir : StateDir

/-- A step of the witness, or a pass: the poller's or an operator's, whether it fails, is killed
halfway, or ends. No two passes overlap. -/
inductive Deployment.Step (crates : SyncCrates) (identity : Identity) :
    Deployment crates.toWitnessCrates → Deployment crates.toWitnessCrates → Prop
  | serves {world next dir} : MosskeysWitness.Step identity world next →
      Step crates identity ⟨world, dir⟩ ⟨next, dir⟩
  | passes {world dir after} (target : FeedTarget) {client : HttpClient} : client.ChecksUrls →
      CutOff crates target client dir after → Step crates identity ⟨world, dir⟩ ⟨world, after⟩

section State

variable {crates : StoreCrates} {file : List UInt8}

theorem text_append {left right : List UInt8} (first : ∃ text, Utf8.decode left = some text)
    (second : ∃ text, Utf8.decode right = some text) :
    ∃ text, Utf8.decode (left ++ right) = some text := by
  rcases first with ⟨text, decoded⟩
  rcases second with ⟨text', decoded'⟩
  refine ⟨text ++ text', ?_⟩
  rw [Utf8.decode_eq_some_iff, Utf8.encode_append, Utf8.encode_of_decode decoded,
    Utf8.encode_of_decode decoded']

theorem Replayable.is_text {raws : List (List UInt8)} {last : List UInt8}
    (replayable : Replayable crates file raws last) : ∃ text, Utf8.decode file = some text := by
  have lines : ∀ {raws : List (List UInt8)}, (∀ raw ∈ raws, ∃ state, Reads crates raw state) →
      ∃ text, Utf8.decode raws.flatten = some text := by
    intro raws records
    induction raws with
    | nil => exact ⟨[], rfl⟩
    | cons raw raws ih =>
        rw [List.forall_mem_cons] at records
        rcases records with ⟨⟨state, line, decoded, -⟩, others⟩
        rw [List.flatten_cons]
        exact text_append ⟨line, decoded⟩ (ih others)
  rw [replayable.whole]
  exact text_append (lines replayable.records) replayable.text

theorem replayable_iff (faithful : crates.Faithful) {journal : List LogState}
    (disk : Disk crates file journal) (named : ∀ state ∈ journal, state.origin ≠ []) :
    (∃ raws last, Replayable crates file raws last) ↔ ∃ text, Utf8.decode file = some text := by
  constructor
  · rintro ⟨raws, last, replayable⟩
    exact replayable.is_text
  · rintro ⟨whole, decoded⟩
    exact (@open_ok_iff crates "" file).mp ⟨_, _, disk.opens_text faithful named ⟨whole, decoded⟩⟩

end State

section Copies

variable {crates : WitnessCrates} {identity : Identity}

theorem disk_of_take {crates : StoreCrates} {journal : List LogState}
    (named : ∀ state ∈ journal, state.origin ≠ []) (count : Nat) :
    ∃ kept, Disk crates ((journalFile crates journal).take count) kept ∧ kept <+: journal := by
  have cut : ∀ front : List LogState, ∃ kept,
      Disk crates (journalFile crates front ++ (journalFile crates journal).take count) kept ∧
        kept <+: front ++ journal := by
    induction journal generalizing count with
    | nil =>
        intro front
        exact ⟨front, by simpa [journalFile] using Disk.clean front, by simp⟩
    | cons state journal ih =>
        intro front
        rw [List.forall_mem_cons] at named
        have line : journalFile crates (state :: journal) =
            recordLine crates state ++ journalFile crates journal := List.flatMap_cons
        rw [line]
        by_cases inside : count ≤ (recordLine crates state).length
        · rw [List.take_append_of_le_length inside]
          refine ⟨_, .torn front state count named.1, ?_⟩
          rw [recoveredJournal]
          split
          · exact ⟨journal, by simp⟩
          · exact List.prefix_append _ _
        · have longer := ih named.2 (count - (recordLine crates state).length) (front ++ [state])
          rw [List.take_append, List.take_of_length_le (by omega)]
          simpa [journalFile] using longer
  rcases cut [] with ⟨kept, disk, start⟩
  exact ⟨kept, disk, start⟩

theorem past_of_prefix {history : History crates} {kept : List LogState}
    (start : kept <+: journal history) : ∃ past, past <:+ history ∧ journal past = kept := by
  induction history with
  | nil => exact ⟨[], List.suffix_rfl, (List.prefix_nil.mp start).symm⟩
  | cons event earlier ih =>
      have before : kept <+: journal earlier → ∃ past, past <:+ event :: earlier ∧
          journal past = kept := by
        intro start
        rcases ih start with ⟨past, since, same⟩
        exact ⟨past, since.trans (List.suffix_cons event earlier), same⟩
      cases event with
      | committed commit =>
          rw [journal_committed, List.prefix_concat_iff] at start
          rcases start with rfl | start
          · exact ⟨_, List.suffix_rfl, journal_committed commit earlier⟩
          · exact before start
      | vetted | refused | clockRead | rejected | responded | served => exact before start

variable (faithful : crates.toStoreCrates.Faithful)
include faithful

/-- A copy of the state file that is made while the witness runs, and breaks off anywhere, is one
that a start accepts exactly when it is text; and what it has is what the witness once had. -/
theorem copy_is_past {process : Process crates} {nextId : Nat} {history : History crates}
    (reachable : Reachable identity ⟨.up process, nextId, history⟩) (count : Nat) (path : String) :
    ((∃ store after, Store.open crates.toStoreCrates path false
        (process.witness.store.inner.file.take count) = (.ok store, after)) ↔
      ∃ text, Utf8.decode (process.witness.store.inner.file.take count) = some text) ∧
    ∀ store after, Store.open crates.toStoreCrates path false
        (process.witness.store.inner.file.take count) = (.ok store, after) →
      ∃ past, past <:+ history ∧ ∀ origin, store.latest origin = latestCommitted past origin := by
  have sound := sound_of_reachable faithful reachable
  have stored := sound.durable.2
  obtain ⟨kept, disk, start⟩ := @disk_of_take crates.toStoreCrates _ sound.named count
  have named : ∀ state ∈ kept, state.origin ≠ [] := fun state member =>
    sound.named state (start.subset member)
  rw [stored]
  refine ⟨open_ok_iff.trans (replayable_iff faithful disk named), ?_⟩
  intro store after opened
  rcases past_of_prefix start with ⟨past, since, same⟩
  refine ⟨past, since, ?_⟩
  intro origin
  rw [Store.latest, disk.opens faithful named opened, latestCommitted, same]

end Copies

open Reference in
/-- A copy that breaks off in the second record. -/
theorem copy_of_two_records : ∃ (process : Process witnessCrates) (nextId : Nat)
    (history : History witnessCrates) (first second : LogState) (count : Nat) (store : Store)
    (after : List UInt8), Reachable Reference.identity ⟨.up process, nextId, history⟩ ∧
      journal history = [first, second] ∧
      process.witness.store.inner.file.take count =
        recordLine storeCrates first ++ (recordLine storeCrates second).take 1 ∧
      Store.open storeCrates "copy.jsonl" false
        (process.witness.store.inner.file.take count) = (.ok store, after) ∧
      ∃ past, past <:+ history ∧ ∀ origin, store.latest origin = latestCommitted past origin := by
  rcases Reference.two_records with ⟨witness, first, second, idle, -, -, -⟩
  have stored := (sound_of_reachable storeCrates_faithful idle.reachable).durable.2
  have recorded : journal (exchange second ++ exchange first) = [first.state, second.state] := rfl
  let count := (recordLine storeCrates first.state).length + 1
  have cut : witness.store.inner.file.take count = recordLine storeCrates first.state ++
      (recordLine storeCrates second.state).take 1 := by
    rw [stored, recorded, journalFile, List.flatMap_cons, List.flatMap_singleton]
    exact List.take_length_add_append 1
  have text : ∃ text, Utf8.decode (witness.store.inner.file.take count) = some text := by
    rw [cut, recordLine_brace, recordLine, ← Utf8.encode_append]
    exact ⟨_, Utf8.decode_encode _⟩
  obtain ⟨opens, past⟩ := copy_is_past storeCrates_faithful idle.reachable count "copy.jsonl"
  rcases opens.mpr text with ⟨store, after, opened⟩
  exact ⟨_, _, _, _, _, count, store, after, idle.reachable, recorded, cut, opened,
    past store after opened⟩

section Directory

variable {crates : SyncCrates} {dir after : StateDir} {first : File}

/-- The managed file is the one of before the deployment, or lists what a feed served. -/
def Kept (crates : SyncCrates) (first : File) (dir : StateDir) : Prop :=
  dir.managed = first ∨
    ∃ raws, raws ≠ [] ∧ Lists crates.toConfigCrates dir.managed raws ∧
      Sane crates.toConfigCrates raws

theorem Kept.passes (laws : crates.RoundTrips) {target : FeedTarget} {client : HttpClient}
    (checks : client.ChecksUrls) (kept : Kept crates first dir)
    (left : CutOff crates target client dir after) : Kept crates first after := by
  cases left with
  | untouched => exact kept
  | writing temp planned => exact kept
  | kept fault planned =>
      rw [Kept, saveEtag_managed]
      exact kept
  | rewritten fault planned =>
      cases planSync_ok planned with
      | rewrite fetched loaded other rendered =>
          rcases parseFeed_ok fetched.parsed with ⟨feed, set⟩
          have clean := checks _ _ fetched.answered
          obtain ⟨raws, lists, sane, empty⟩ :=
            lists_of_load (loads_rendered laws set.distinct clean rendered target.managedPath)
          refine Or.inr ⟨raws, ?_, ?_, sane⟩
          · rw [Ne, ← empty]
            exact set.nonempty
          · rw [saveEtag_managed]
            exact lists

end Directory

section Runs

variable {axum : Axum} {crates : SyncCrates} {keys : KeygenCrates} {identity : Identity}
  {site : Site} {raw : RawConfig} {entries : List RawLog}

theorem Deployment.of_run {world next : World crates.toWitnessCrates}
    (run : ReflTransGen (MosskeysWitness.Step identity) world next) (dir : StateDir) :
    ReflTransGen (Deployment.Step crates identity) ⟨world, dir⟩ ⟨next, dir⟩ := by
  induction run with
  | refl => exact .refl
  | tail _ step ih => exact ih.tail (.serves step)

theorem Deployment.reached (laws : crates.RoundTrips)
    {start deployment : Deployment crates.toWitnessCrates}
    (run : ReflTransGen (Deployment.Step crates identity) start deployment) :
    ReflTransGen (MosskeysWitness.Step identity) start.world deployment.world ∧
      Kept crates start.dir.managed deployment.dir := by
  induction run with
  | refl => exact ⟨.refl, Or.inl rfl⟩
  | tail _ step ih =>
      rcases ih with ⟨reached, kept⟩
      cases step with
      | serves step => exact ⟨reached.tail step, kept⟩
      | passes target checks left => exact ⟨reached, kept.passes laws checks left⟩

/-- A host on which a witness came up once is one on which it comes up again, whatever it cosigned
since, whatever the feeds served and wherever its runs ended, unless a crash cut a record inside
of a character. -/
theorem comes_up_again (faithful : crates.toStoreCrates.Faithful) (laws : crates.RoundTrips)
    (routes : axum.Laws param) {path : String} {service : Service axum crates.toWitnessCrates}
    {after : List UInt8}
    (came : run axum crates.toConfigCrates keys path site = (.ok service, after)) {dir : StateDir}
    (managed : dir.managed = site.managed) {deployment : Deployment crates.toWitnessCrates}
    (deployed : ReflTransGen (Deployment.Step crates identity) ⟨.initial, dir⟩ deployment)
    {file : List UInt8} (down : deployment.world.machine = .down file) :
    (∃ service after, run axum crates.toConfigCrates keys path
      { site with managed := deployment.dir.managed, state := file } = (.ok service, after)) ↔
      ∃ text, Utf8.decode file = some text := by
  rcases Deployment.reached laws deployed with ⟨reached, kept⟩
  have sound := sound_of_reachable faithful reached
  have disk := sound.durable
  rw [down] at disk
  rw [← replayable_iff faithful disk sound.named]
  constructor
  · rintro ⟨service', after', again⟩
    rcases ready_of_run routes again with ⟨raw, entries, ready⟩
    exact ready.replayable
  · intro replayable
    rcases ready_of_run routes came with ⟨raw, entries, ready⟩
    rw [Kept, managed] at kept
    rcases kept with same | ⟨raws, nonempty, lists, sane⟩
    · rw [same]
      have again : Ready crates.toConfigCrates keys { site with state := file } raw entries :=
        { ready with replayable := replayable }
      exact run_of_ready routes again path
    · have again : Ready crates.toConfigCrates keys
          { site with managed := deployment.dir.managed, state := file } raw raws :=
        { ready with
          managed := sane
          lists := lists
          listed := Or.inr nonempty
          replayable := replayable }
      exact run_of_ready routes again path

end Runs

open Reference Host in
/-- A witness that cosigned once, and a pass that found a log more. -/
theorem host_comes_up_again : ∃ (deployment : Deployment witnessCrates) (file : List UInt8),
    ReflTransGen (Deployment.Step scheduledCrates Reference.identity)
        ⟨.initial, ⟨none, none, none⟩⟩ deployment ∧ deployment.world.machine = .down file ∧
      deployment.world.history ≠ [] ∧ deployment.dir.managed ≠ none ∧
      ((∃ service after, run axum scheduledCrates.toConfigCrates keygenCrates "witness.toml"
        { host fun _ => none with managed := deployment.dir.managed, state := file } =
          (.ok service, after)) ↔ ∃ text, Utf8.decode file = some text) := by
  rcases Reference.one_record with ⟨witness, commit, idle, -, -⟩
  rcases run_of_ready axum_laws host_ready "witness.toml" with ⟨service, after, came⟩
  obtain ⟨dir, passed⟩ := pass_rewrites scheduledCrates_roundTrips
    (.fromConfig bareConfig (some feedUrl)) ⟨none, none, none⟩
    (feedClient_answers (feedBody [beta]) none) scheduled_parses rfl (by simp)
  have left := @syncFeed_cutOff scheduledCrates (.fromConfig bareConfig (some feedUrl))
    (feedClient none (feedBody [beta])) .none ⟨none, none, none⟩
  rw [passed] at left
  have served : ReflTransGen (Deployment.Step scheduledCrates Reference.identity)
      ⟨.initial, ⟨none, none, none⟩⟩
      ⟨⟨.up ⟨witness, [], []⟩, 1, exchange commit⟩, ⟨none, none, none⟩⟩ :=
    @Deployment.of_run scheduledCrates _ _ _ idle.reachable _
  have deployed := (served.tail (.serves .stop)).tail
    (.passes (.fromConfig bareConfig (some feedUrl)) (feedClient_checksUrls _ _) left)
  refine ⟨_, witness.store.inner.file, deployed, rfl, List.cons_ne_nil _ _, ?_,
    comes_up_again storeCrates_faithful scheduledCrates_roundTrips axum_laws came rfl deployed
      rfl⟩
  intro missing
  have written := loads_after scheduledCrates_roundTrips (by decide) passed rfl
  rw [missing] at written
  cases written

end Server

end MosskeysWitness
