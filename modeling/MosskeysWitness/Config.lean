import MosskeysWitness.Library.Net
import MosskeysWitness.Keygen
import MosskeysWitness.Witness

/-! Operator configuration and its startup validation: the manual stanzas, the managed file, and
the allowlist merged from both. -/

namespace MosskeysWitness

namespace Path

/-- The components two paths are compared by: the root, and the names; `.` counts in front only. -/
def components (path : String) : List Text :=
  match path.toList.splitOn '/' with
  | [] => []
  | front :: rest =>
      let names := rest.filter fun name => name ≠ [] ∧ name ≠ ['.']
      if front ≠ [] then front :: names
      else if path.isEmpty then []
      else ['/'] :: names

def render : List Text → String
  | [] => ""
  | ['/'] :: names => "/" ++ String.intercalate "/" (names.map String.ofList)
  | names => String.intercalate "/" (names.map String.ofList)

/-- `Path::with_file_name`: the root, `.` and `..` are no file names. -/
def withFileName (path : String) (name : Text) : String :=
  let names := components path
  let named := names.getLast?.any fun last => last ∉ [['/'], ['.'], ['.', '.']]
  render ((if named then names.dropLast else names) ++ [name])

end Path

/-- A file of the state directory: its bytes, unless it is absent. -/
abbrev File := Option (List UInt8)

def readToString : File → Except FileError Text
  | none => .error .notFound
  | some bytes =>
      match Utf8.decode bytes with
      | none => .error .invalidData
      | some text => .ok text

@[simp] theorem readToString_encode (text : Text) :
    readToString (some (Utf8.encode text)) = .ok text := by
  simp [readToString]

structure RawKeys where
  ed25519Seed : String
  mldsa44Seed : String

structure RawDiscovery where
  feedUrl : Option Text
  intervalSecs : Option UInt64

structure RawLog where
  origin : Text
  vkeys : List Text

structure RawConfig where
  name : Text
  listen : Text
  stateFile : String
  keys : RawKeys
  logs : List RawLog
  discovery : Option RawDiscovery

structure RawManaged where
  logs : List RawLog

inductive ConfigError where
  | io (path : String) (source : FileError)
  | parse (path : String) (source : String)
  | invalidName (source : KeygenError)
  | badNamePrefix (name : Text)
  | listen (address : Text)
  | sameSeedFile (path : String)
  | duplicateOrigin (origin : Text)
  | emptyOrigin
  | noVkeys (origin : Text)
  | badVkey (origin vkey : Text) (reason : String)
  | feedUrl (url : Text)
  | discoveryIntervalZero
  | managedIo (path : String) (source : FileError)
  | managedParse (path : String) (source : String)
  deriving DecidableEq

/-- The witness's crates with `VerifierKey::parse` and `encode`, and `toml::from_str` at the two
raw shapes. -/
structure ConfigCrates extends WitnessCrates where
  parseKey : Text → Except String log.VerifierKey
  encodeKey : log.VerifierKey → Text
  readConfig : Text → Except String RawConfig
  readManaged : Text → Except String RawManaged

structure DiscoveryConfig where
  feedUrl : Option Text
  intervalSecs : Option UInt64

/-- The config with the fields the witness itself is not built from. -/
structure LoadedConfig (crates : WitnessCrates) extends Config crates where
  listen : SocketAddr
  ed25519Seed : String
  mldsa44Seed : String
  discovery : Option DiscoveryConfig

def managedFileName : Text := "discovered_logs.toml".toList

def managedFilePath (stateFile : String) : String := Path.withFileName stateFile managedFileName

def prefixFromName (name : Text) : Except ConfigError Text :=
  let path := (name.dropWhile (· ≠ '/')).rdropWhile (· = '/')
  if path = [] then .ok []
  else if ['/', '/'] <:+: path ∨ path.any fun scalar => scalar ∈ ['{', '}', '*'] then
    .error (.badNamePrefix name)
  else .ok path

theorem prefixFromName_error {name : Text} {e : ConfigError}
    (refused : prefixFromName name = .error e) : e = .badNamePrefix name := by
  unfold prefixFromName at refused
  dsimp only at refused
  split_ifs at refused
  exact (Except.error.inj refused).symm

section Entries

variable (crates : ConfigCrates)

/-- The keys are parsed in order, and the first that does not parse is the error. -/
def parseVkeys (origin : Text) : List Text → Except ConfigError (List crates.log.VerifierKey)
  | [] => .ok []
  | vkey :: rest =>
      match crates.parseKey vkey with
      | .error reason => .error (.badVkey origin vkey reason)
      | .ok key =>
          match parseVkeys origin rest with
          | .error e => .error e
          | .ok keys => .ok (key :: keys)

variable {crates}

theorem parseVkeys_ok_iff {origin : Text} {vkeys : List Text}
    {keys : List crates.log.VerifierKey} : parseVkeys crates origin vkeys = .ok keys ↔
      List.Forall₂ (fun vkey key => crates.parseKey vkey = .ok key) vkeys keys := by
  induction vkeys generalizing keys with
  | nil =>
      rw [parseVkeys, List.forall₂_nil_left_iff, Except.ok.injEq]
      exact eq_comm
  | cons vkey vkeys ih =>
      rw [parseVkeys, List.forall₂_cons_left_iff]
      cases parsed : crates.parseKey vkey with
      | error reason => simp
      | ok key =>
          cases others : parseVkeys crates origin vkeys with
          | error e =>
              rw [others] at ih
              simp [← ih]
          | ok rest =>
              rw [others] at ih
              simp only [← ih, Except.ok.injEq]
              constructor
              · intro whole
                exact ⟨key, rest, rfl, rfl, whole.symm⟩
              · intro split
                rcases split with ⟨key', rest', rfl, rfl, whole⟩
                exact whole.symm

theorem parseVkeys_ne_nil {origin : Text} {vkeys : List Text}
    {keys : List crates.log.VerifierKey} (parsed : parseVkeys crates origin vkeys = .ok keys)
    (nonempty : vkeys ≠ []) : keys ≠ [] := by
  have pairs := parseVkeys_ok_iff.mp parsed
  intro empty
  subst empty
  exact nonempty (List.forall₂_nil_right_iff.mp pairs)

variable (crates)

def validateLogEntry (origin : Text) (vkeys : List Text) :
    Except ConfigError (LogConfig crates.toWitnessCrates) :=
  if named : origin = [] then .error .emptyOrigin
  else if listed : vkeys = [] then .error (.noVkeys origin)
  else match parsed : parseVkeys crates origin vkeys with
    | .error e => .error e
    | .ok keys => .ok ⟨origin, keys, named, parseVkeys_ne_nil parsed listed⟩

/-- The loop of `validate`, `load_managed_entries` and `parse_feed` over the raw entries: no
origin twice, and every entry valid. -/
def validateEntries : List RawLog → Finset Text →
    Except ConfigError (List (LogConfig crates.toWitnessCrates))
  | [], _ => .ok []
  | raw :: rest, seen =>
      if raw.origin ∈ seen then .error (.duplicateOrigin raw.origin)
      else match validateLogEntry crates raw.origin raw.vkeys with
        | .error e => .error e
        | .ok log =>
            match validateEntries rest (insert raw.origin seen) with
            | .error e => .error e
            | .ok logs => .ok (log :: logs)

variable {crates}

/-- A raw entry and the log it is validated to. -/
structure Validates (raw : RawLog) (log : LogConfig crates.toWitnessCrates) : Prop where
  origin : log.origin = raw.origin
  parsed : List.Forall₂ (fun vkey key => crates.parseKey vkey = .ok key) raw.vkeys log.vkeys

theorem validateLogEntry_ok_iff {raw : RawLog} {log : LogConfig crates.toWitnessCrates} :
    validateLogEntry crates raw.origin raw.vkeys = .ok log ↔ Validates raw log := by
  rcases log with ⟨origin, keys, named, trusted⟩
  constructor
  · intro accepted
    unfold validateLogEntry at accepted
    split_ifs at accepted
    split at accepted
    · cases accepted
    · rename_i parsed
      cases accepted
      exact ⟨rfl, parseVkeys_ok_iff.mp parsed⟩
  · intro valid
    have same : origin = raw.origin := valid.origin
    subst same
    have parsed : parseVkeys crates raw.origin raw.vkeys = .ok keys :=
      parseVkeys_ok_iff.mpr valid.parsed
    have listed : raw.vkeys ≠ [] := by
      intro empty
      have pairs := valid.parsed
      rw [empty] at pairs
      exact trusted (List.forall₂_nil_left_iff.mp pairs)
    unfold validateLogEntry
    rw [dif_neg named, dif_neg listed]
    split
    · rename_i failed
      rw [parsed] at failed
      cases failed
    · rename_i succeeded
      rw [parsed] at succeeded
      cases succeeded
      rfl

theorem validateEntries_cons_iff {raw : RawLog} {raws : List RawLog} {seen : Finset Text}
    {logs : List (LogConfig crates.toWitnessCrates)} :
    validateEntries crates (raw :: raws) seen = .ok logs ↔
      raw.origin ∉ seen ∧ ∃ log rest, Validates raw log ∧
        validateEntries crates raws (insert raw.origin seen) = .ok rest ∧ logs = log :: rest := by
  rw [validateEntries]
  by_cases known : raw.origin ∈ seen
  · simp [known]
  · rw [if_neg known]
    simp only [← validateLogEntry_ok_iff]
    cases validateLogEntry crates raw.origin raw.vkeys with
    | error e => simp
    | ok log =>
        cases validateEntries crates raws (insert raw.origin seen) with
        | error e => simp
        | ok rest => simp [known, eq_comm]

theorem validateEntries_ok_iff {raws : List RawLog} {seen : Finset Text}
    {logs : List (LogConfig crates.toWitnessCrates)} :
    validateEntries crates raws seen = .ok logs ↔
      List.Forall₂ Validates raws logs ∧ (raws.map RawLog.origin).Nodup ∧
        ∀ raw ∈ raws, raw.origin ∉ seen := by
  induction raws generalizing seen logs with
  | nil =>
      rw [validateEntries, List.forall₂_nil_left_iff, Except.ok.injEq]
      simp [eq_comm]
  | cons raw raws ih =>
      have fresh : (∀ other ∈ raws, other.origin ∉ insert raw.origin seen) ↔
          raw.origin ∉ raws.map RawLog.origin ∧ ∀ other ∈ raws, other.origin ∉ seen := by
        simp only [Finset.mem_insert, not_or, List.mem_map, not_exists, not_and]
        exact forall₂_and
      simp only [validateEntries_cons_iff, ih, fresh, List.forall₂_cons_left_iff, List.map_cons,
        List.nodup_cons, List.forall_mem_cons]
      constructor
      · intro accepted
        rcases accepted with ⟨unseen, log, rest, valid, ⟨pairs, distinct, other, apart⟩, rfl⟩
        exact ⟨⟨log, rest, valid, pairs, rfl⟩, ⟨other, distinct⟩, unseen, apart⟩
      · intro valid
        rcases valid with ⟨⟨log, rest, first, pairs, rfl⟩, ⟨other, distinct⟩, unseen, apart⟩
        exact ⟨unseen, log, rest, first, ⟨pairs, distinct, other, apart⟩, rfl⟩

theorem LogConfig.ext {crates : WitnessCrates} {left right : LogConfig crates}
    (origin : left.origin = right.origin) (vkeys : left.vkeys = right.vkeys) : left = right := by
  cases left
  cases right
  cases origin
  cases vkeys
  rfl

def Distinct {crates : WitnessCrates} (logs : List (LogConfig crates)) : Prop :=
  (logs.map LogConfig.origin).Nodup

instance {crates : WitnessCrates} (logs : List (LogConfig crates)) : Decidable (Distinct logs) :=
  inferInstanceAs (Decidable (List.Nodup _))

theorem origins_of_validates {raws : List RawLog} {logs : List (LogConfig crates.toWitnessCrates)}
    (valid : List.Forall₂ Validates raws logs) :
    logs.map LogConfig.origin = raws.map RawLog.origin := by
  induction valid with
  | nil => rfl
  | cons first _ ih => rw [List.map_cons, List.map_cons, first.origin, ih]

variable (crates)

/-- `Ok(None)` when the file is absent. -/
def loadManagedEntries (path : String) (file : File) :
    Except ConfigError (Option (List (LogConfig crates.toWitnessCrates))) :=
  match readToString file with
  | .error .notFound => .ok none
  | .error e => .error (.managedIo path e)
  | .ok text =>
      match crates.readManaged text with
      | .error e => .error (.managedParse path e)
      | .ok raw =>
          match validateEntries crates raw.logs ∅ with
          | .error e => .error e
          | .ok logs => .ok (some logs)

end Entries

/-- The managed entries are appended, but for those whose origin was seen. -/
def mergeManaged {crates : WitnessCrates} (seen : Finset Text) (logs : List (LogConfig crates)) :
    List (LogConfig crates) → List (LogConfig crates)
  | [] => logs
  | log :: managed =>
      if log.origin ∈ seen then mergeManaged seen logs managed
      else mergeManaged (insert log.origin seen) (logs ++ [log]) managed

theorem mergeManaged_eq {crates : WitnessCrates} {seen : Finset Text}
    {logs managed : List (LogConfig crates)} (distinct : Distinct managed) :
    mergeManaged seen logs managed = logs ++ managed.filter fun log => log.origin ∉ seen := by
  induction managed generalizing seen logs with
  | nil => simp [mergeManaged]
  | cons log managed ih =>
      rw [Distinct, List.map_cons, List.nodup_cons] at distinct
      rw [mergeManaged, List.filter_cons]
      by_cases known : log.origin ∈ seen
      · simp [known, ih distinct.2]
      · have others : managed.filter (fun other => other.origin ∉ insert log.origin seen) =
            managed.filter fun other => other.origin ∉ seen := by
          apply List.filter_congr
          intro other member
          have apart : other.origin ≠ log.origin := by
            intro same
            exact distinct.1 (same ▸ List.mem_map_of_mem member)
          simp [apart]
        rw [if_neg known, ih distinct.2, others]
        simp [known]

section Validate

variable (crates : ConfigCrates)

def parseListen (address : Text) : Except ConfigError SocketAddr :=
  match SocketAddr.parse address with
  | none => .error (.listen address)
  | some listen => .ok listen

def validateKeys (keys : RawKeys) : Except ConfigError Unit :=
  if Path.components keys.ed25519Seed = Path.components keys.mldsa44Seed then
    .error (.sameSeedFile keys.ed25519Seed)
  else .ok ()

theorem validateKeys_ok_iff {keys : RawKeys} : validateKeys keys = .ok () ↔
    Path.components keys.ed25519Seed ≠ Path.components keys.mldsa44Seed := by
  unfold validateKeys
  split_ifs with same <;> simp [same]

def validateDiscovery : Option RawDiscovery → Except ConfigError Unit
  | none => .ok ()
  | some discovery =>
      match discovery.feedUrl.filter fun url =>
        !("https://".toList.isPrefixOf url || "http://".toList.isPrefixOf url) with
      | some url => .error (.feedUrl url)
      | none =>
          if discovery.intervalSecs = some 0 then .error .discoveryIntervalZero else .ok ()

/-- `validate` on a state directory whose managed file is `managed`. -/
def validate (raw : RawConfig) (managed : File) :
    Except ConfigError (LoadedConfig crates.toWitnessCrates) := do
  (validateName raw.name).mapError .invalidName
  let apiPrefix ← prefixFromName raw.name
  let listen ← parseListen raw.listen
  validateKeys raw.keys
  validateDiscovery raw.discovery
  let manualLogs ← validateEntries crates raw.logs ∅
  let entries ← loadManagedEntries crates (managedFilePath raw.stateFile) managed
  let seen := (raw.logs.map RawLog.origin).toFinset
  pure
    { name := raw.name
      apiPrefix
      stateFile := raw.stateFile
      manualLogs
      logs := mergeManaged seen manualLogs (entries.getD [])
      listen
      ed25519Seed := raw.keys.ed25519Seed
      mldsa44Seed := raw.keys.mldsa44Seed
      discovery := raw.discovery.map fun discovery => ⟨discovery.feedUrl, discovery.intervalSecs⟩ }

def load (path : String) (file managed : File) :
    Except ConfigError (LoadedConfig crates.toWitnessCrates) :=
  match readToString file with
  | .error e => .error (.io path e)
  | .ok text =>
      match crates.readConfig text with
      | .error e => .error (.parse path e)
      | .ok raw => validate crates raw managed

variable {crates}

theorem loadManagedEntries_distinct {path : String} {file : File}
    {logs : List (LogConfig crates.toWitnessCrates)}
    (loaded : loadManagedEntries crates path file = .ok (some logs)) : Distinct logs := by
  unfold loadManagedEntries at loaded
  split at loaded
  · cases loaded
  · cases loaded
  · split at loaded
    · cases loaded
    · split at loaded
      · cases loaded
      · rename_i accepted
        cases loaded
        obtain ⟨pairs, distinct, -⟩ := validateEntries_ok_iff.mp accepted
        rw [Distinct, origins_of_validates pairs]
        exact distinct

theorem bind_ok {ε α β : Type} {first : Except ε α} {next : α → Except ε β} {result : β}
    (succeeded : first >>= next = .ok result) :
    ∃ value, first = .ok value ∧ next value = .ok result := by
  cases first with
  | error e => cases succeeded
  | ok value => exact ⟨value, rfl, succeeded⟩

theorem map_ok {ε α β : Type} {first : Except ε α} {f : α → β} {result : β}
    (succeeded : first.map f = .ok result) : ∃ value, first = .ok value ∧ f value = result := by
  cases first with
  | error e => cases succeeded
  | ok value => exact ⟨value, rfl, Except.ok.inj succeeded⟩

theorem mapError_ok {ε ε' α : Type} {first : Except ε α} {f : ε → ε'} {result : α}
    (succeeded : first.mapError f = .ok result) : first = .ok result := by
  cases first with
  | error e => cases succeeded
  | ok value => exact congrArg _ (Except.ok.inj succeeded)

theorem loadManagedEntries_path {path : String} {file : File}
    {entries : Option (List (LogConfig crates.toWitnessCrates))}
    (loaded : loadManagedEntries crates path file = .ok entries) (other : String) :
    loadManagedEntries crates other file = .ok entries := by
  unfold loadManagedEntries at loaded ⊢
  split at loaded
  · exact loaded
  · cases loaded
  · split at loaded
    · cases loaded
    · exact loaded

/-- The managed file decides nothing but the entries that are appended. -/
theorem validate_managed {raw : RawConfig} {managed : File}
    {entries : Option (List (LogConfig crates.toWitnessCrates))}
    (loaded : loadManagedEntries crates (managedFilePath raw.stateFile) managed = .ok entries) :
    validate crates raw managed = (validate crates raw none).map fun config =>
      { config with
        logs := mergeManaged (raw.logs.map RawLog.origin).toFinset config.manualLogs
          (entries.getD []) } := by
  have absent : loadManagedEntries crates (managedFilePath raw.stateFile) none = .ok none := rfl
  simp only [validate, loaded, absent, bind, Except.bind, pure, Except.pure]
  cases validateName raw.name <;> try rfl
  cases prefixFromName raw.name <;> try rfl
  cases parseListen raw.listen <;> try rfl
  cases validateKeys raw.keys <;> try rfl
  cases validateDiscovery raw.discovery <;> try rfl
  cases validateEntries crates raw.logs ∅ <;> rfl

structure Loaded (raw : RawConfig) (managed : File)
    (entries : List (LogConfig crates.toWitnessCrates))
    (config : LoadedConfig crates.toWitnessCrates) : Prop where
  manual : validateEntries crates raw.logs ∅ = .ok config.manualLogs
  managed : (loadManagedEntries crates (managedFilePath raw.stateFile) managed).map
    (fun entries => entries.getD []) = .ok entries
  merged : config.logs = config.manualLogs ++
    entries.filter fun log => log.origin ∉ config.manualLogs.map LogConfig.origin

structure Accepted (raw : RawConfig) (managed : File)
    (entries : Option (List (LogConfig crates.toWitnessCrates)))
    (config : LoadedConfig crates.toWitnessCrates) : Prop where
  named : validateName raw.name = .ok ()
  derived : prefixFromName raw.name = .ok config.apiPrefix
  listen : parseListen raw.listen = .ok config.listen
  keys : validateKeys raw.keys = .ok ()
  discovery : validateDiscovery raw.discovery = .ok ()
  manual : validateEntries crates raw.logs ∅ = .ok config.manualLogs
  loaded : loadManagedEntries crates (managedFilePath raw.stateFile) managed = .ok entries
  name : config.name = raw.name
  ed25519Seed : config.ed25519Seed = raw.keys.ed25519Seed
  mldsa44Seed : config.mldsa44Seed = raw.keys.mldsa44Seed
  logs : config.logs =
    mergeManaged (raw.logs.map RawLog.origin).toFinset config.manualLogs (entries.getD [])

theorem validate_accepted {raw : RawConfig} {managed : File}
    {config : LoadedConfig crates.toWitnessCrates}
    (accepted : validate crates raw managed = .ok config) :
    ∃ entries, Accepted raw managed entries config := by
  obtain ⟨⟨⟩, named, accepted⟩ := bind_ok accepted
  obtain ⟨apiPrefix, derived, accepted⟩ := bind_ok accepted
  obtain ⟨address, listen, accepted⟩ := bind_ok accepted
  obtain ⟨⟨⟩, keys, accepted⟩ := bind_ok accepted
  obtain ⟨⟨⟩, discovery, accepted⟩ := bind_ok accepted
  obtain ⟨manualLogs, manual, accepted⟩ := bind_ok accepted
  obtain ⟨entries, loaded, accepted⟩ := bind_ok accepted
  cases accepted
  exact ⟨entries, mapError_ok named, derived, listen, keys, discovery, manual, loaded, rfl, rfl,
    rfl, rfl⟩

theorem validate_ok {raw : RawConfig} {managed : File}
    {config : LoadedConfig crates.toWitnessCrates}
    (accepted : validate crates raw managed = .ok config) :
    ∃ entries, Loaded raw managed entries config := by
  obtain ⟨entries, accepted⟩ := validate_accepted accepted
  have origins := origins_of_validates (validateEntries_ok_iff.mp accepted.manual).1
  have distinct : Distinct (entries.getD []) := by
    cases entries with
    | none => exact List.nodup_nil
    | some logs => exact loadManagedEntries_distinct accepted.loaded
  refine ⟨entries.getD [], accepted.manual, ?_, ?_⟩
  · rw [accepted.loaded]
    rfl
  · rw [accepted.logs, mergeManaged_eq distinct, origins]
    simp only [List.mem_toFinset]

theorem validate_refuses {raw : RawConfig} (managed : File)
    (refused : ∀ apiPrefix, ¬ (validateName raw.name = .ok () ∧
      prefixFromName raw.name = .ok apiPrefix)) :
    validate crates raw managed = .error (.invalidName (.invalidName raw.name)) ∨
      validate crates raw managed = .error (.badNamePrefix raw.name) := by
  rw [validate]
  cases named : validateName raw.name with
  | error e =>
      rw [validateName_error named]
      exact Or.inl rfl
  | ok =>
      cases derived : prefixFromName raw.name with
      | error e =>
          rw [prefixFromName_error derived]
          exact Or.inr rfl
      | ok apiPrefix => exact absurd ⟨named, derived⟩ (refused apiPrefix)

def LoadedConfig.withManaged {crates : WitnessCrates} (config : LoadedConfig crates)
    (managed : List (LogConfig crates)) : LoadedConfig crates :=
  { config with
    logs := config.manualLogs ++
      managed.filter fun log => log.origin ∉ config.manualLogs.map LogConfig.origin }

theorem validate_withManaged {raw : RawConfig} {config : LoadedConfig crates.toWitnessCrates}
    (accepted : validate crates raw none = .ok config) {managed : File} {path : String}
    {logs : List (LogConfig crates.toWitnessCrates)}
    (loaded : loadManagedEntries crates path managed = .ok (some logs)) :
    validate crates raw managed = .ok (config.withManaged logs) := by
  obtain ⟨entries, manual, -, -⟩ := validate_ok accepted
  have origins := origins_of_validates (validateEntries_ok_iff.mp manual).1
  rw [validate_managed (loadManagedEntries_path loaded _), accepted, Except.map,
    LoadedConfig.withManaged]
  simp only [Option.getD_some, mergeManaged_eq (loadManagedEntries_distinct loaded), origins,
    List.mem_toFinset]

end Validate

end MosskeysWitness
