import MosskeysWitness.Identities
import MosskeysWitness.Replay
import MosskeysWitness.Routing

/-! What a start of the service needs of the host: the conditions in the operator's terms, and that
each check of the code is one of them. -/

namespace MosskeysWitness

theorem Split.derives {name apiPrefix host : Text} {parts : List Text}
    (split : Split name apiPrefix host parts) : prefixFromName name = .ok apiPrefix := by
  have single : ¬ ['/', '/'] <:+: apiPrefix := by
    rw [split.derived]
    exact Uri.single_join fun part member =>
      ⟨(split.solid part member).1, split.slashless part member⟩
  have plain : ¬ apiPrefix.any fun scalar => scalar ∈ ['{', '}', '*'] := by
    rw [split.derived, List.any_eq_true]
    rintro ⟨scalar, member, syntactic⟩
    have syntactic := of_decide_eq_true syntactic
    rcases Uri.mem_join.mp member with ⟨-, rfl⟩ | ⟨part, inside, member⟩
    · exact absurd syntactic (by decide)
    · exact (split.solid part inside).2 scalar member (List.mem_cons_of_mem _ syntactic)
  unfold prefixFromName
  simp only [split.path]
  split_ifs with empty bad
  · rw [empty]
  · exact absurd bad (not_or.mpr ⟨single, plain⟩)
  · rfl

namespace Server

inductive BindError where
  | addressInUse
  | addressNotAvailable
  | permissionDenied
  deriving DecidableEq

/-- The host of a start. The managed file is the one beside the state file, and `openable` says
that the state file can be opened or created. -/
structure Site where
  config : File
  managed : File
  seeds : Seeds
  openable : Bool
  locked : Bool
  state : List UInt8
  bind : SocketAddr → Option BindError

section Conditions

variable (crates : ConfigCrates) (keys : KeygenCrates)

/-- Every origin once and named, and all keys are keys. -/
structure Sane (raws : List RawLog) : Prop where
  once : (raws.map RawLog.origin).Nodup
  named : ∀ raw ∈ raws, raw.origin ≠ []
  listed : ∀ raw ∈ raws, raw.vkeys ≠ []
  parsed : ∀ raw ∈ raws, ∀ vkey ∈ raw.vkeys, ∃ key, crates.parseKey vkey = .ok key

/-- The file lists the entries `raws`, or there is none. -/
def Lists (file : File) (raws : List RawLog) : Prop :=
  file = none ∧ raws = [] ∨
    ∃ text, file = some (Utf8.encode text) ∧ crates.readManaged text = .ok ⟨raws⟩

/-- The seed of `suite` for the witness `name`: only its owner may open the file, and no comment
in it names another witness or another key. -/
structure HoldsSeed (suite : Suite) (name : Text) (file : Option SeedFile) (seed : Hash)
    (mode : UInt32) (text line vkey : Text) : Prop where
  file : file = some ⟨mode, Utf8.encode text⟩
  ownerOnly : mode &&& 0o077 = 0
  found : Keygen.seedLine text = some line
  decoded : keys.base64.decode line = .ok seed.bytes
  derived : Keygen.deriveVkey keys suite name seed = .ok vkey
  names : ∀ found, Keygen.nameKey ++ found ∈ Strings.lines text → found = name
  keys : ∀ found, Keygen.vkeyKey ++ found ∈ Strings.lines text → found = vkey

/-- Every line of the file but the last is a record, and the last is text. -/
structure Replayable (crates : StoreCrates) (file : List UInt8) (raws : List (List UInt8))
    (last : List UInt8) : Prop where
  whole : file = raws.flatten ++ last
  ended : ∀ raw ∈ raws, Lines.Terminated newline raw
  records : ∀ raw ∈ raws, ∃ state, Reads crates raw state
  single : (Lines.split newline last).length ≤ 1
  text : ∃ text, Utf8.decode last = some text

structure Ready (site : Site) (raw : RawConfig) (entries : List RawLog) : Prop where
  config : ∃ text, site.config = some (Utf8.encode text) ∧ crates.readConfig text = .ok raw
  named : raw.name ≠ [] ∧ ∀ scalar ∈ raw.name, Strings.isWhitespace scalar = false ∧ scalar ≠ '+'
  mounted : ∃ apiPrefix host parts, Split raw.name apiPrefix host parts
  colonless : ¬ ['/', ':'] <:+: raw.name
  listens : ∃ address, SocketAddr.parse raw.listen = some address ∧ site.bind address = none
  apart : Path.components raw.keys.ed25519Seed ≠ Path.components raw.keys.mldsa44Seed
  feedUrl : ∀ discovery ∈ raw.discovery, ∀ url ∈ discovery.feedUrl,
    "https://".toList <+: url ∨ "http://".toList <+: url
  interval : ∀ discovery ∈ raw.discovery, discovery.intervalSecs ≠ some 0
  manual : Sane crates raw.logs
  managed : Sane crates entries
  lists : Lists crates site.managed entries
  listed : raw.logs ≠ [] ∨ entries ≠ []
  ed25519 : ∃ seed mode text line vkey, HoldsSeed keys .ed25519 raw.name
    (site.seeds.resolve raw.keys.ed25519Seed) seed mode text line vkey
  mldsa44 : ∃ seed mode text line vkey, HoldsSeed keys .mldsa44 raw.name
    (site.seeds.resolve raw.keys.mldsa44Seed) seed mode text line vkey
  openable : site.openable = true
  unlocked : site.locked = false
  replayable : ∃ raws last, Replayable crates.toStoreCrates site.state raws last

end Conditions

section Seeds

variable {keys : KeygenCrates} {path : String} {suite : Suite} {name vkey : Text}
  {file : Option SeedFile}

theorem crossCheck_ok_iff {texts : List Text} :
    Keygen.crossCheck path name vkey texts = .ok () ↔
      (∀ found, Keygen.nameKey ++ found ∈ texts → found = name) ∧
        ∀ found, Keygen.vkeyKey ++ found ∈ texts → found = vkey := by
  constructor
  · intro checked
    have lines := Keygen.crossCheck_ok checked
    exact ⟨fun found member => (lines _ member).1 found rfl,
      fun found member => (lines _ member).2 found rfl⟩
  · rintro ⟨names, others⟩
    induction texts with
    | nil => rfl
    | cons line more ih =>
        have rest := ih (fun found member => names found (List.mem_cons_of_mem _ member))
          fun found member => others found (List.mem_cons_of_mem _ member)
        rw [Keygen.crossCheck]
        split
        · rename_i found stripped
          rw [Strings.stripPrefix_eq_some_iff.mp stripped] at names
          rw [names found List.mem_cons_self, if_neg (by simp)]
          exact rest
        · split
          · rename_i found stripped
            rw [Strings.stripPrefix_eq_some_iff.mp stripped] at others
            rw [others found List.mem_cons_self, if_neg (by simp)]
            exact rest
          · exact rest

theorem readToString_ok_iff {file : File} {text : Text} :
    readToString file = .ok text ↔ file = some (Utf8.encode text) := by
  constructor
  · intro read
    unfold readToString at read
    split at read
    · cases read
    · split at read
      · cases read
      · rename_i bytes text' decoded
        cases read
        rw [Utf8.encode_of_decode decoded]
  · rintro rfl
    exact readToString_encode text

theorem checkOwnerOnly_ok_iff {mode : UInt32} {bytes : List UInt8} :
    Keygen.checkOwnerOnly path (some ⟨mode, bytes⟩) = .ok () ↔ mode &&& 0o077 = 0 := by
  have bits : (mode &&& 0o777) &&& 0o077 = mode &&& 0o077 := by
    rw [UInt32.and_assoc]
    rfl
  simp only [Keygen.checkOwnerOnly, bits]
  split
  · rename_i shared
    simpa using shared
  · rename_i closed
    simpa using closed

theorem loadSeed_ok_iff (named : validateName name = .ok ()) :
    (∃ key, Keygen.loadSeed keys path suite name file = .ok key) ↔
      ∃ seed mode text line vkey, HoldsSeed keys suite name file seed mode text line vkey := by
  constructor
  · rintro ⟨key, loaded⟩
    rcases bind_ok loaded with ⟨⟨⟩, -, loaded⟩
    rcases bind_ok loaded with ⟨⟨⟩, owned, loaded⟩
    rcases bind_ok loaded with ⟨text, read, loaded⟩
    rcases bind_ok loaded with ⟨seed, decoded, loaded⟩
    rcases bind_ok loaded with ⟨vkey, derived, loaded⟩
    rcases bind_ok loaded with ⟨⟨⟩, checked, -⟩
    have content := readToString_ok_iff.mp (mapError_ok read)
    rcases Option.map_eq_some_iff.mp content with ⟨⟨mode, bytes⟩, rfl, same⟩
    cases same
    rcases Keygen.seedFromText_ok_iff.mp decoded with ⟨line, found, bytes⟩
    rcases crossCheck_ok_iff.mp checked with ⟨names, others⟩
    exact ⟨seed, mode, text, line, vkey, rfl, checkOwnerOnly_ok_iff.mp owned, found, bytes,
      derived, names, others⟩
  · rintro ⟨seed, mode, text, line, vkey, holds⟩
    have owned := (@checkOwnerOnly_ok_iff path _ (Utf8.encode text)).mpr holds.ownerOnly
    have read : readToString (file.map SeedFile.bytes) = .ok text := by
      rw [holds.file]
      exact readToString_encode text
    have decoded : Keygen.seedFromText keys.base64 path text = .ok seed :=
      Keygen.seedFromText_ok_iff.mpr ⟨line, holds.found, holds.decoded⟩
    have checked := (@crossCheck_ok_iff path _ _ _).mpr ⟨holds.names, holds.keys⟩
    refine ⟨⟨seed, vkey⟩, ?_⟩
    rw [← holds.file] at owned
    simp only [Keygen.loadSeed, named, owned, read, Except.mapError, decoded, holds.derived,
      checked, bind, Except.bind, pure, Except.pure]

end Seeds

section Config

variable {crates : ConfigCrates}

theorem parseListen_ok_iff {text : Text} {address : SocketAddr} :
    parseListen text = .ok address ↔ SocketAddr.parse text = some address := by
  unfold parseListen
  cases SocketAddr.parse text <;> simp

theorem validateDiscovery_ok_iff {raw : Option RawDiscovery} : validateDiscovery raw = .ok () ↔
    ∀ discovery ∈ raw, (∀ url ∈ discovery.feedUrl,
      "https://".toList <+: url ∨ "http://".toList <+: url) ∧ discovery.intervalSecs ≠ some 0 := by
  cases raw with
  | none => simp [validateDiscovery]
  | some discovery =>
      have urls : (discovery.feedUrl.filter fun url =>
          !("https://".toList.isPrefixOf url || "http://".toList.isPrefixOf url)) = none ↔
            ∀ url ∈ discovery.feedUrl, "https://".toList <+: url ∨ "http://".toList <+: url := by
        simp only [Option.filter_eq_none_iff, Bool.not_eq_true', Bool.not_eq_false,
          Bool.or_eq_true, List.isPrefixOf_iff_prefix, Option.mem_def]
      simp only [validateDiscovery, Option.mem_some_iff, forall_eq']
      split
      · rename_i url bad
        constructor
        · intro impossible
          cases impossible
        · intro fine
          rw [urls.mpr fine.1] at bad
          cases bad
      · rename_i good
        split_ifs with zero
        · exact iff_of_false nofun fun fine => fine.2 zero
        · exact iff_of_true rfl ⟨urls.mp good, zero⟩

theorem exists_forall₂ {α β : Type} {relation : α → β → Prop} {items : List α} :
    (∃ others, List.Forall₂ relation items others) ↔
      ∀ item ∈ items, ∃ other, relation item other := by
  induction items with
  | nil => simp
  | cons item items ih =>
      rw [List.forall_mem_cons, ← ih]
      constructor
      · rintro ⟨_, first | ⟨first, others⟩⟩
        exact ⟨⟨_, first⟩, _, others⟩
      · rintro ⟨⟨other, first⟩, others, rest⟩
        exact ⟨other :: others, .cons first rest⟩

theorem validates_iff {raw : RawLog} :
    (∃ log : LogConfig crates.toWitnessCrates, Validates raw log) ↔
      raw.origin ≠ [] ∧ raw.vkeys ≠ [] ∧
        ∀ vkey ∈ raw.vkeys, ∃ key, crates.parseKey vkey = .ok key := by
  rw [← exists_forall₂]
  constructor
  · rintro ⟨log, valid⟩
    refine ⟨valid.origin ▸ log.named, ?_, log.vkeys, valid.parsed⟩
    intro empty
    have pairs := valid.parsed
    rw [empty] at pairs
    exact log.trusted (List.forall₂_nil_left_iff.mp pairs)
  · rintro ⟨named, listed, vkeys, parsed⟩
    refine ⟨⟨raw.origin, vkeys, named, ?_⟩, rfl, parsed⟩
    rintro rfl
    exact listed (List.forall₂_nil_right_iff.mp parsed)

theorem sane_iff {raws : List RawLog} :
    (∃ logs, validateEntries crates raws ∅ = .ok logs) ↔ Sane crates raws := by
  simp only [validateEntries_ok_iff, Finset.notMem_empty, not_false_eq_true, implies_true,
    and_true, exists_and_right, exists_forall₂, validates_iff]
  constructor
  · rintro ⟨valid, once⟩
    exact ⟨once, fun raw member => (valid raw member).1, fun raw member => (valid raw member).2.1,
      fun raw member => (valid raw member).2.2⟩
  · intro sane
    exact ⟨fun raw member => ⟨sane.named raw member, sane.listed raw member,
      sane.parsed raw member⟩, sane.once⟩

theorem length_validated {raws : List RawLog} {logs : List (LogConfig crates.toWitnessCrates)}
    (validated : validateEntries crates raws ∅ = .ok logs) : logs = [] ↔ raws = [] := by
  have length := (validateEntries_ok_iff.mp validated).1.length_eq
  rw [← List.length_eq_zero_iff, ← length, List.length_eq_zero_iff]

theorem lists_of_load {path : String} {file : File}
    {entries : Option (List (LogConfig crates.toWitnessCrates))}
    (loaded : loadManagedEntries crates path file = .ok entries) :
    ∃ raws, Lists crates file raws ∧ Sane crates raws ∧ (entries.getD [] = [] ↔ raws = []) := by
  unfold loadManagedEntries at loaded
  split at loaded
  · rename_i absent
    cases loaded
    refine ⟨[], Or.inl ⟨?_, rfl⟩, sane_iff.mp ⟨[], rfl⟩, by simp⟩
    unfold readToString at absent
    split at absent
    · rfl
    · split at absent <;> cases absent
  · cases loaded
  · rename_i text read
    split at loaded
    · cases loaded
    · rename_i raw parsed
      split at loaded
      · cases loaded
      · rename_i logs validated
        cases loaded
        exact ⟨raw.logs, Or.inr ⟨text, readToString_ok_iff.mp read, parsed⟩,
          sane_iff.mp ⟨logs, validated⟩, length_validated validated⟩

theorem load_of_lists (path : String) {file : File} {raws : List RawLog}
    (lists : Lists crates file raws) (sane : Sane crates raws) :
    ∃ entries, loadManagedEntries crates path file = .ok entries ∧
      (entries.getD [] = [] ↔ raws = []) := by
  rcases lists with ⟨rfl, rfl⟩ | ⟨text, rfl, parsed⟩
  · exact ⟨none, rfl, by simp⟩
  · rcases sane_iff.mpr sane with ⟨logs, validated⟩
    refine ⟨some logs, ?_, length_validated validated⟩
    simp only [loadManagedEntries, readToString_encode, parsed, validated]

theorem validate_of {raw : RawConfig} {managed : File} {apiPrefix : Text} {listen : SocketAddr}
    {manualLogs : List (LogConfig crates.toWitnessCrates)}
    {entries : Option (List (LogConfig crates.toWitnessCrates))}
    (named : validateName raw.name = .ok ()) (derived : prefixFromName raw.name = .ok apiPrefix)
    (address : parseListen raw.listen = .ok listen) (keys : validateKeys raw.keys = .ok ())
    (discovery : validateDiscovery raw.discovery = .ok ())
    (manual : validateEntries crates raw.logs ∅ = .ok manualLogs)
    (loaded : loadManagedEntries crates (managedFilePath raw.stateFile) managed = .ok entries) :
    ∃ config, validate crates raw managed = .ok config := by
  simp only [validate, named, derived, address, keys, discovery, manual, loaded, Except.mapError,
    bind, Except.bind, pure, Except.pure]
  exact ⟨_, rfl⟩

theorem logs_nil_iff {raw : RawConfig} {managed : File}
    {entries : Option (List (LogConfig crates.toWitnessCrates))}
    {config : LoadedConfig crates.toWitnessCrates}
    (accepted : Accepted raw managed entries config) :
    config.logs = [] ↔ raw.logs = [] ∧ entries.getD [] = [] := by
  have distinct : Distinct (entries.getD []) := by
    cases entries with
    | none => exact List.nodup_nil
    | some logs => exact loadManagedEntries_distinct accepted.loaded
  rw [accepted.logs, mergeManaged_eq distinct, List.append_eq_nil_iff,
    length_validated accepted.manual]
  constructor
  · rintro ⟨empty, none⟩
    refine ⟨empty, ?_⟩
    simpa [empty] using none
  · rintro ⟨empty, none⟩
    simp [empty, none]

end Config

section State

variable {crates : StoreCrates}

theorem split_free {last : List UInt8} (free : newline ∉ last) :
    (Lines.split newline last).length ≤ 1 := by
  by_cases empty : last = []
  · simp [empty]
  · rw [Lines.split_unterminated free empty]
    rfl

theorem open_ok_iff {path : String} {file : List UInt8} :
    (∃ store after, Store.open crates path false file = (.ok store, after)) ↔
      ∃ raws last, Replayable crates file raws last := by
  constructor
  · rintro ⟨store, after, opened⟩
    have outcome := opens crates path file
    rw [opened] at outcome
    have records : ∀ {raws journal}, List.Forall₂ (Reads crates) raws journal →
        ∀ raw ∈ raws, ∃ state, Reads crates raw state := by
      intro raws journal reads
      exact exists_forall₂.mp ⟨journal, reads⟩
    cases outcome with
    | clean reads ended =>
        exact ⟨_, [], by simp, ended, records reads, by simp, [], rfl⟩
    | unterminated reads ended free read =>
        rcases read with ⟨line, decoded, -⟩
        exact ⟨_, _, rfl, ended, records reads, split_free free, line, decoded⟩
    | torn reads ended free unreadable =>
        rcases unreadable with ⟨line, -, decoded, -⟩
        exact ⟨_, _, rfl, ended, records reads, split_free free, line, decoded⟩
    | damaged reads ended terminated unreadable =>
        rcases unreadable with ⟨line, -, decoded, -⟩
        refine ⟨_, _, rfl, ended, records reads, ?_, line, decoded⟩
        rw [Lines.split_single terminated]
        rfl
  · rintro ⟨raws, last, replayable⟩
    rcases exists_forall₂.mpr replayable.records with ⟨journal, reads⟩
    have ended := replayable.ended
    rw [replayable.whole]
    cases cut : Lines.split newline last with
    | nil =>
        rw [Lines.split_eq_nil_iff.mp cut, List.append_nil, open_clean path reads ended]
        exact ⟨_, _, rfl⟩
    | cons raw more =>
        have single := replayable.single
        rw [cut, List.length_cons] at single
        obtain rfl : more = [] := List.length_eq_zero_iff.mp (by omega)
        have same := Lines.split_flatten newline last
        rw [cut, List.flatten_singleton] at same
        subst same
        rcases raw_cases crates raw with invalid | unreadable | ⟨state, read⟩
        · rcases replayable.text with ⟨text, decoded⟩
          rw [invalid] at decoded
          cases decoded
        · rw [open_dropped path reads ended cut unreadable]
          exact ⟨_, _, rfl⟩
        · rcases Lines.split_cons_cases cut with terminated | ⟨free, -, -⟩
          · have longer : List.Forall₂ (Reads crates) (raws ++ [raw]) (journal ++ [state]) :=
              List.rel_append reads (.cons read .nil)
            have clean := open_clean path longer (by
              rw [List.forall_mem_append, List.forall_mem_singleton]
              exact ⟨ended, terminated⟩)
            rw [List.flatten_append, List.flatten_singleton] at clean
            exact ⟨_, _, clean⟩
          · have nonempty : raw ≠ [] := by
              rintro rfl
              cases cut
            exact ⟨_, _, open_unterminated path reads ended nonempty free read⟩

end State

end Server

end MosskeysWitness
