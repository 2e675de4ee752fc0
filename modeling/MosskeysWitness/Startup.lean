import MosskeysWitness.Cluster
import MosskeysWitness.Cron
import MosskeysWitness.Durability
import MosskeysWitness.Mounting
import MosskeysWitness.Readiness

/-! `server::run` up to its first request: when it comes up, and what it leaves behind when it does
not. -/

namespace MosskeysWitness

namespace Server

inductive RunError where
  | config (source : ConfigError)
  | startup (source : StartupError KeygenError)
  | bind (address : SocketAddr) (source : BindError)

/-- How a start ends that does not come up: with an error, or with the panic of the router. -/
inductive RunEnd where
  | failed (error : RunError)
  | panicked

def defaultIntervalSecs : UInt64 := 300

/-- A witness that listens, what its poller polls and how often, and the router it is behind. -/
structure Service (axum : Axum) (crates : WitnessCrates) where
  witness : Witness crates
  listen : SocketAddr
  poller : Option (FeedTarget × UInt64)
  app : axum.Router

def discoveryTarget {crates : WitnessCrates} (config : LoadedConfig crates) :
    Option (FeedTarget × UInt64) :=
  config.discovery.map fun discovery =>
    (.fromConfig config none, discovery.intervalSecs.getD defaultIntervalSecs)

/-- A start at a site. It gets as far as the state file when that cannot be opened. -/
def startAt (crates : ConfigCrates) (keys : KeygenCrates)
    (config : LoadedConfig crates.toWitnessCrates) (site : Site) :
    Except (StartupError KeygenError) (Witness crates.toWitnessCrates) × List UInt8 :=
  let started := startOnSeeds crates keys config site.seeds site.locked site.state
  if site.openable then started
  else match started.1 with
    | .ok _ | .error (.store _) => (.error (.store (.io config.stateFile .opening)), site.state)
    | .error e => (.error e, site.state)

/-- `run` until it serves, and what the state file holds afterwards. -/
def run (axum : Axum) (crates : ConfigCrates) (keys : KeygenCrates) (path : String) (site : Site) :
    Except RunEnd (Service axum crates.toWitnessCrates) × List UInt8 :=
  match load crates path site.config site.managed with
  | .error e => (.error (.failed (.config e)), site.state)
  | .ok config =>
      match startAt crates keys config site with
      | (.error e, state) => (.error (.failed (.startup e)), state)
      | (.ok witness, state) =>
          match site.bind config.listen with
          | some e => (.error (.failed (.bind config.listen e)), state)
          | none =>
              match routerShared axum witness.apiPrefix with
              | none => (.error .panicked, state)
              | some app => (.ok ⟨witness, config.listen, discoveryTarget config, app⟩, state)

section Start

variable {axum : Axum} {crates : ConfigCrates} {keys : KeygenCrates} {path : String} {site : Site}

theorem open_locked {crates : StoreCrates} {path : String} {locked : Bool} {file after : List UInt8}
    {store : Store} (opened : Store.open crates path locked file = (.ok store, after)) :
    locked = false := by
  cases locked with
  | false => rfl
  | true =>
      rw [Store.open, if_pos rfl] at opened
      cases opened

theorem startAt_ok_iff {config : LoadedConfig crates.toWitnessCrates}
    {witness : Witness crates.toWitnessCrates} {after : List UInt8} :
    startAt crates keys config site = (.ok witness, after) ↔ site.openable = true ∧
      startOnSeeds crates keys config site.seeds site.locked site.state = (.ok witness, after) := by
  unfold startAt
  split_ifs with openable
  · simp [openable]
  · constructor
    · intro started
      dsimp only at started
      split at started <;> cases started
    · rintro ⟨openable', -⟩
      exact absurd openable' openable

/-- A start that comes up, by its parts. -/
structure Comes (axum : Axum) (crates : ConfigCrates) (keys : KeygenCrates) (site : Site)
    (raw : RawConfig) (config : LoadedConfig crates.toWitnessCrates)
    (service : Service axum crates.toWitnessCrates) (after : List UInt8) : Prop where
  written : ∃ text, site.config = some (Utf8.encode text) ∧ crates.readConfig text = .ok raw
  accepted : validate crates raw site.managed = .ok config
  openable : site.openable = true
  started : startOnSeeds crates keys config site.seeds site.locked site.state =
    (.ok service.witness, after)
  bound : site.bind config.listen = none
  routed : routerShared axum service.witness.apiPrefix = some service.app
  service : service = ⟨service.witness, config.listen, discoveryTarget config, service.app⟩

theorem run_ok_iff {service : Service axum crates.toWitnessCrates} {after : List UInt8} :
    run axum crates keys path site = (.ok service, after) ↔
      ∃ raw config, Comes axum crates keys site raw config service after := by
  constructor
  · intro ran
    unfold run at ran
    split at ran
    · cases ran
    · rename_i config loaded
      split at ran
      · cases ran
      · rename_i witness state started
        rcases startAt_ok_iff.mp started with ⟨openable, started⟩
        split at ran
        · cases ran
        · rename_i bound
          split at ran
          · cases ran
          · rename_i app routed
            cases ran
            unfold load at loaded
            split at loaded
            · cases loaded
            · rename_i text read
              split at loaded
              · cases loaded
              · rename_i raw parsed
                exact ⟨raw, config, ⟨text, readToString_ok_iff.mp read, parsed⟩, loaded, openable,
                  started, bound, routed, rfl⟩
  · rintro ⟨raw, config, ⟨text, written, parsed⟩, accepted, openable, started, bound, routed,
      same⟩
    have starts := startAt_ok_iff.mpr ⟨openable, started⟩
    rw [same]
    simp only [run, load, written, readToString_encode, parsed, accepted, starts, bound, routed]

theorem startOnSeeds_ok_iff {config : LoadedConfig crates.toWitnessCrates} {seeds : Seeds}
    {locked : Bool} {state : List UInt8} :
    (∃ witness after, startOnSeeds crates keys config seeds locked state = (.ok witness, after)) ↔
      config.logs ≠ [] ∧
        (∃ key, Keygen.loadSeed keys config.ed25519Seed .ed25519 config.name
          (seeds.resolve config.ed25519Seed) = .ok key) ∧
        (∃ key, Keygen.loadSeed keys config.mldsa44Seed .mldsa44 config.name
          (seeds.resolve config.mldsa44Seed) = .ok key) ∧
        locked = false ∧ ∃ raws last, Replayable crates.toStoreCrates state raws last := by
  constructor
  · rintro ⟨witness, after, started⟩
    have starts := Witness.fromConfig_starts started
    have opened := starts.store
    obtain rfl := open_locked opened
    exact ⟨starts.nonempty, ⟨_, starts.ed25519⟩, ⟨_, starts.mldsa44⟩, rfl,
      open_ok_iff.mp ⟨_, _, opened⟩⟩
  · rintro ⟨nonempty, ⟨first, ed25519⟩, ⟨second, mldsa44⟩, rfl, replayable⟩
    rcases (@open_ok_iff _ config.stateFile _).mpr replayable with ⟨store, after, opened⟩
    simp only [startOnSeeds, Witness.fromConfig, if_neg nonempty, ed25519, mldsa44, opened]
    exact ⟨_, _, rfl⟩

theorem ready_of_run (routes : axum.Laws param) {service : Service axum crates.toWitnessCrates}
    {after : List UInt8} (ran : run axum crates keys path site = (.ok service, after)) :
    ∃ raw entries, Ready crates keys site raw entries := by
  rcases run_ok_iff.mp ran with ⟨raw, config, comes⟩
  rcases validate_accepted comes.accepted with ⟨entries, accepted⟩
  have colonless : ¬ ['/', ':'] <:+: raw.name := by
    rw [← router_panics_iff routes accepted.derived,
      ← (Witness.fromConfig_starts comes.started).apiPrefix, comes.routed]
    nofun
  rcases prefixFromName_ok accepted.derived with ⟨host, parts, split⟩
  rcases lists_of_load accepted.loaded with ⟨raws, lists, sane, empty⟩
  have discovery := validateDiscovery_ok_iff.mp accepted.discovery
  obtain ⟨nonempty, ed25519, mldsa44, unlocked, replayable⟩ :=
    startOnSeeds_ok_iff.mp ⟨_, _, comes.started⟩
  rw [Ne, logs_nil_iff accepted, empty, not_and_or] at nonempty
  rw [accepted.name, accepted.ed25519Seed, loadSeed_ok_iff accepted.named] at ed25519
  rw [accepted.name, accepted.mldsa44Seed, loadSeed_ok_iff accepted.named] at mldsa44
  exact ⟨raw, raws,
    { config := comes.written
      named := validateName_ok_iff.mp accepted.named
      mounted := ⟨_, host, parts, split⟩
      colonless := colonless
      listens := ⟨config.listen, parseListen_ok_iff.mp accepted.listen, comes.bound⟩
      apart := validateKeys_ok_iff.mp accepted.keys
      feedUrl := fun found member => (discovery found member).1
      interval := fun found member => (discovery found member).2
      manual := sane_iff.mp ⟨_, accepted.manual⟩
      managed := sane
      lists := lists
      listed := nonempty
      ed25519 := ed25519
      mldsa44 := mldsa44
      openable := comes.openable
      unlocked := unlocked
      replayable := replayable }⟩

theorem run_of_ready (routes : axum.Laws param) {raw : RawConfig} {raws : List RawLog}
    (ready : Ready crates keys site raw raws) (path : String) :
    ∃ service after, run axum crates keys path site = (.ok service, after) := by
  simp only [run_ok_iff]
  rcases ready.mounted with ⟨apiPrefix, host, parts, split⟩
  rcases ready.listens with ⟨listen, address, bound⟩
  rcases sane_iff.mpr ready.manual with ⟨manual, validated⟩
  obtain ⟨entries, loaded, empty⟩ :=
    load_of_lists (managedFilePath raw.stateFile) ready.lists ready.managed
  have named := validateName_ok_iff.mpr ready.named
  have discovery := validateDiscovery_ok_iff.mpr fun found member =>
    ⟨ready.feedUrl found member, ready.interval found member⟩
  obtain ⟨config, valid⟩ := validate_of named (Split.derives split)
    (parseListen_ok_iff.mpr address) (validateKeys_ok_iff.mpr ready.apart) discovery validated
    loaded
  rcases validate_accepted valid with ⟨entries', accepted⟩
  cases Except.ok.inj (loaded.symm.trans accepted.loaded)
  have nonempty : config.logs ≠ [] := by
    rw [Ne, logs_nil_iff accepted, empty, not_and_or]
    exact ready.listed
  have ed25519 := (@loadSeed_ok_iff keys raw.keys.ed25519Seed _ _ _ named).mpr ready.ed25519
  have mldsa44 := (@loadSeed_ok_iff keys raw.keys.mldsa44Seed _ _ _ named).mpr ready.mldsa44
  rw [← accepted.name, ← accepted.ed25519Seed] at ed25519
  rw [← accepted.name, ← accepted.mldsa44Seed] at mldsa44
  obtain ⟨witness, after, started⟩ := startOnSeeds_ok_iff.mpr
    ⟨nonempty, ed25519, mldsa44, ready.unlocked, ready.replayable⟩
  have same := parseListen_ok_iff.mp accepted.listen
  rw [address] at same
  cases same
  have routed : routerShared axum witness.apiPrefix ≠ none := by
    rw [(Witness.fromConfig_starts started).apiPrefix, Ne,
      router_panics_iff routes accepted.derived]
    exact ready.colonless
  rcases Option.ne_none_iff_exists'.mp routed with ⟨app, built⟩
  exact ⟨⟨witness, config.listen, discoveryTarget config, app⟩, after, raw, config, ready.config,
    valid, ready.openable, started, bound, built, rfl⟩

/-- A start comes up exactly when the host is ready for it. -/
theorem comes_up_iff_ready (routes : axum.Laws param) :
    (∃ service after, run axum crates keys path site = (.ok service, after)) ↔
      ∃ raw entries, Ready crates keys site raw entries := by
  constructor
  · rintro ⟨service, after, ran⟩
    exact ready_of_run routes ran
  · rintro ⟨raw, entries, ready⟩
    exact run_of_ready routes ready path

end Start

section Retry

variable {axum : Axum} {crates : ConfigCrates} {keys : KeygenCrates}

theorem replayLines_path {crates : StoreCrates} {path : String} {file after : List UInt8}
    {raws : List (List UInt8)} {offset recordNo : Nat} {states : States} {needsNewline : Bool}
    {result : States × Bool}
    (replayed : replayLines crates path file raws offset recordNo states needsNewline =
      (.ok result, after)) (other : String) :
    replayLines crates other file raws offset recordNo states needsNewline =
      (.ok result, after) := by
  induction raws generalizing offset recordNo states needsNewline with
  | nil => exact replayed
  | cons raw more ih =>
      unfold replayLines at replayed ⊢
      split at replayed
      · cases replayed
      · split at replayed
        · exact ih replayed
        · split at replayed
          · exact replayed
          · split at replayed <;> cases replayed

theorem open_path {crates : StoreCrates} {path : String} {file after : List UInt8} {store : Store}
    (opened : Store.open crates path false file = (.ok store, after)) (other : String) :
    Store.open crates other false file = (.ok ⟨other, store.inner⟩, after) := by
  unfold Store.open at opened ⊢
  rw [if_neg (by simp)] at opened ⊢
  cases replayed : replay crates path file with
  | mk outcome left =>
      rw [replayed] at opened
      cases outcome with
      | error e => cases opened
      | ok result =>
          rcases result with ⟨states, needsNewline⟩
          have same : replay crates other file = (.ok (states, needsNewline), left) :=
            replayLines_path replayed other
          rw [same]
          cases opened
          rfl

/-- A start tells two state files apart only by what opening them gives. -/
theorem startOnSeeds_of_open {config : LoadedConfig crates.toWitnessCrates} {seeds : Seeds}
    {locked : Bool} {left right : List UInt8}
    (same : (Store.open crates.toStoreCrates config.stateFile locked left).1 =
      (Store.open crates.toStoreCrates config.stateFile locked right).1) :
    (startOnSeeds crates keys config seeds locked left).1 =
      (startOnSeeds crates keys config seeds locked right).1 := by
  simp only [startOnSeeds, Witness.fromConfig]
  split_ifs
  · rfl
  · split
    · rfl
    · split
      · rfl
      · cases first : Store.open crates.toStoreCrates config.stateFile locked left with
        | mk outcome _ =>
            cases second : Store.open crates.toStoreCrates config.stateFile locked right with
            | mk outcome' _ =>
                rw [first, second] at same
                cases (same : outcome = outcome')
                cases outcome <;> rfl

theorem startAt_of_open {config : LoadedConfig crates.toWitnessCrates} {site : Site}
    {state : List UInt8}
    (same : ∀ name locked, (Store.open crates.toStoreCrates name locked state).1 =
      (Store.open crates.toStoreCrates name locked site.state).1) :
    (startAt crates keys config { site with state }).1 = (startAt crates keys config site).1 := by
  have starts := @startOnSeeds_of_open crates keys config site.seeds site.locked _ _
    (same config.stateFile site.locked)
  simp only [startAt]
  split
  · exact starts
  · rw [starts]
    split <;> rfl

theorem run_of_open {path : String} {site : Site} {state : List UInt8}
    (same : ∀ name locked, (Store.open crates.toStoreCrates name locked state).1 =
      (Store.open crates.toStoreCrates name locked site.state).1) :
    (run axum crates keys path { site with state }).1 = (run axum crates keys path site).1 := by
  simp only [run]
  split
  · rfl
  · rename_i config _
    have starts := @startAt_of_open crates keys config site _ same
    cases first : startAt crates keys config { site with state } with
    | mk outcome _ =>
        cases second : startAt crates keys config site with
        | mk outcome' _ =>
            rw [first, second] at starts
            cases (starts : outcome = outcome')
            cases outcome with
            | error e => rfl
            | ok witness =>
                dsimp only
                split
                · rfl
                · split <;> rfl

theorem run_taken {path : String} {site : Site} {config : LoadedConfig crates.toWitnessCrates}
    {witness : Witness crates.toWitnessCrates} {after : List UInt8} {e : BindError}
    (loaded : load crates path site.config site.managed = .ok config)
    (started : startAt crates keys config site = (.ok witness, after))
    (taken : site.bind config.listen = some e) :
    run axum crates keys path site = (.error (.failed (.bind config.listen e)), after) := by
  simp only [run, loaded, started, taken]

theorem startAt_error {config : LoadedConfig crates.toWitnessCrates} {site : Site}
    {e : StartupError KeygenError} {after : List UInt8}
    (refused : startAt crates keys config site = (.error e, after)) : after = site.state := by
  simp only [startAt] at refused
  split at refused
  · exact Cluster.fromConfig_error refused
  · split at refused <;> cases refused <;> rfl

theorem run_error {path : String} {site : Site} {e : RunEnd} {after : List UInt8}
    (ended : run axum crates keys path site = (.error e, after)) :
    after = site.state ∨ ∃ name store,
      Store.open crates.toStoreCrates name false site.state = (.ok store, after) := by
  unfold run at ended
  split at ended
  · cases ended
    exact Or.inl rfl
  · split at ended
    · rename_i refused
      cases ended
      exact Or.inl (startAt_error refused)
    · rename_i config _ _ witness state started
      have opened := (Witness.fromConfig_starts (startAt_ok_iff.mp started).2).store
      rw [open_locked opened] at opened
      have left : state = after := by
        split at ended
        · exact congrArg Prod.snd ended
        · split at ended
          · exact congrArg Prod.snd ended
          · cases ended
      exact Or.inr ⟨config.stateFile, witness.store, left ▸ opened⟩

theorem open_again {crates : StoreCrates} {name : String} {file after : List UInt8}
    {store : Store} (opened : Store.open crates name false file = (.ok store, after))
    (other : String) (locked : Bool) :
    (Store.open crates other locked after).1 = (Store.open crates other locked file).1 := by
  cases locked with
  | true => rfl
  | false => rw [open_path opened other, open_path (open_idempotent opened) other]

/-- Nothing that a failed start leaves behind shows in a later one, whatever was wrong and whatever
has been put right since. -/
theorem failed_start_is_harmless {path : String} {site : Site} {e : RunEnd} {after : List UInt8}
    (failed : run axum crates keys path site = (.error e, after)) (path' : String) (later : Site)
    (kept : later.state = site.state) :
    (run axum crates keys path' { later with state := after }).1 =
      (run axum crates keys path' later).1 := by
  apply run_of_open
  intro name locked
  rw [kept]
  rcases run_error failed with rfl | ⟨_, _, opened⟩
  · rfl
  · exact open_again opened name locked

end Retry

section Host

open Reference Host

def torn : List UInt8 := Utf8.encode ['\x7b']

def hostSeeds : Seeds :=
  (Folder.put (fun _ => none) "ed25519.seed" (Keygen.bareFile base64 (seed 1))).put "mldsa44.seed"
    (Keygen.bareFile base64 (seed 2))

def host (bind : SocketAddr → Option BindError) : Site :=
  ⟨configFile, none, hostSeeds, true, false, torn, bind⟩

theorem torn_unreadable : Unreadable storeCrates torn :=
  ⟨['\x7b'], _, Utf8.decode_encode _, rfl⟩

theorem torn_single : Lines.split newline torn = [torn] := rfl

theorem host_holds (suite : Suite) {path : String} {seed : Hash}
    (found : hostSeeds.resolve path = some (Keygen.bareFile base64 seed)) :
    ∃ seed mode text line vkey, HoldsSeed keygenCrates suite rawConfig.name
      (hostSeeds.resolve path) seed mode text line vkey := by
  have valid : validateName rawConfig.name = .ok () := by decide
  rcases Keygen.loadSeed_bareFile keygenCrates_laws path suite valid seed with ⟨vkey, loaded⟩
  rw [found]
  exact (loadSeed_ok_iff valid).mp ⟨_, loaded⟩

theorem host_ready : Ready scheduledCrates.toConfigCrates keygenCrates (host fun _ => none)
    rawConfig [] where
  config := ⟨configText, rfl, scheduled_reader⟩
  named := validateName_ok_iff.mp (by decide)
  mounted := by
    have derived : prefixFromName rawConfig.name = .ok [] := by decide
    exact ⟨[], prefixFromName_ok derived⟩
  colonless := by decide
  listens := ⟨.v4 [0, 0, 0, 0] 80, by decide, rfl⟩
  apart := by decide
  feedUrl := nofun
  interval := nofun
  manual := sane_iff.mp ⟨_, scheduled_entries alpha⟩
  managed := sane_iff.mp ⟨[], rfl⟩
  lists := Or.inl ⟨rfl, rfl⟩
  listed := Or.inl (List.cons_ne_nil _ _)
  ed25519 := by
    have found : hostSeeds.resolve "ed25519.seed" = some (Keygen.bareFile base64 (seed 1)) := by
      apply Folder.resolve_file
      rw [hostSeeds, Folder.put_of_ne (by decide), Folder.put_self]
    exact host_holds .ed25519 found
  mldsa44 := host_holds .mldsa44 (Folder.resolve_put : hostSeeds.resolve "mldsa44.seed" = _)
  openable := rfl
  unlocked := rfl
  replayable := ⟨[], torn, rfl, by simp, by simp, by simp [torn_single], _, Utf8.decode_encode _⟩

/-- The host comes up on the torn file once its port is free. -/
theorem host_comes_up : ∃ service after,
    run axum scheduledCrates.toConfigCrates keygenCrates "witness.toml" (host fun _ => none) =
      (.ok service, after) :=
  (comes_up_iff_ready axum_laws).mpr ⟨rawConfig, [], host_ready⟩

theorem torn_dropped (path : String) :
    Store.open storeCrates path false torn = (.ok (opened path [] []), []) :=
  @open_dropped storeCrates [] [] path .nil (by simp) torn torn_single torn_unreadable

/-- While the port is taken a start cuts off the torn record, and that does not show. -/
theorem taken_port_is_harmless : ∃ e after,
    run axum scheduledCrates.toConfigCrates keygenCrates "witness.toml"
        (host fun _ => some .addressInUse) = (.error e, after) ∧ after ≠ torn ∧
      (run axum scheduledCrates.toConfigCrates keygenCrates "witness.toml"
          { host fun _ => none with state := after }).1 =
        (run axum scheduledCrates.toConfigCrates keygenCrates "witness.toml"
          (host fun _ => none)).1 := by
  have ready := host_ready
  have named : validateName rawConfig.name = .ok () := by decide
  have ed25519 := (@loadSeed_ok_iff keygenCrates "ed25519.seed" .ed25519 rawConfig.name
    (hostSeeds.resolve "ed25519.seed") named).mpr ready.ed25519
  have mldsa44 := (@loadSeed_ok_iff keygenCrates "mldsa44.seed" .mldsa44 rawConfig.name
    (hostSeeds.resolve "mldsa44.seed") named).mpr ready.mldsa44
  obtain ⟨witness, after, started⟩ := (@startOnSeeds_ok_iff scheduledCrates.toConfigCrates
    keygenCrates bareConfig hostSeeds false torn).mpr
      ⟨List.cons_ne_nil _ _, ed25519, mldsa44, rfl, ready.replayable⟩
  have failed : run axum scheduledCrates.toConfigCrates keygenCrates "witness.toml"
      (host fun _ => some .addressInUse) =
        (.error (.failed (.bind bareConfig.listen .addressInUse)), after) :=
    run_taken scheduled_loads (startAt_ok_iff.mpr ⟨rfl, started⟩) rfl
  have cut : after = [] := by
    have opened := (Witness.fromConfig_starts started).store
    exact congrArg Prod.snd (opened.symm.trans (torn_dropped bareConfig.stateFile))
  refine ⟨_, after, failed, ?_, failed_start_is_harmless failed "witness.toml"
    (host fun _ => none) rfl⟩
  rw [cut]
  decide

end Host

end Server

end MosskeysWitness
