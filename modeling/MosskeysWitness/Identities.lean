import MosskeysWitness.Reference.Keys

/-! The identity a seed file stands for, and the two identities a witness starts with. -/

namespace MosskeysWitness

open Keygen

section OneFile

variable {crates : KeygenCrates} {name : Text} {suite : Suite} {seed : Hash}
  {publicKey : List UInt8}

/-- A generated seed file loads back as the identity it was generated for, and as no other one. -/
theorem seed_file_loads_back (laws : crates.Laws) (valid : validateName name = .ok ())
    (derived : crates.publicKey suite seed = .ok publicKey) (outDir : String) (seeds : Seeds)
    (free : seeds (seedPath outDir suite) = none) :
    ∃ generated after file,
      generateOne crates name suite outDir (seed, publicKey) none seeds = (.ok generated, after) ∧
      after.resolve generated.seedFile = some file ∧
      file.bytes = Utf8.encode (seedFileText crates.base64 name suite generated.vkey seed) ∧
      loadSeed crates generated.seedFile suite name (some file) = .ok ⟨seed, generated.vkey⟩ ∧
      (∀ suite' other, validateName other = .ok () → other ≠ name →
        loadSeed crates generated.seedFile suite' other (some file) =
          .error (.nameMismatch generated.seedFile other name)) ∧
      (∀ suite' other, suite' ≠ suite →
        ∃ e, loadSeed crates generated.seedFile suite' other (some file) = .error e) ∧
      Strings.lines (seedFileText crates.base64 name suite generated.vkey seed) =
        header name suite generated.vkey ++ [crates.base64.encode seed.bytes] ∧
      (∀ line ∈ header name suite generated.vkey, IsComment line) ∧
      seedLine (seedFileText crates.base64 name suite generated.vkey seed) =
        some (crates.base64.encode seed.bytes) := by
  obtain ⟨key, built, wrote⟩ := @generateOne_ok crates name suite seed publicKey laws valid derived
    outDir seeds free
  have solid := laws.solid suite name publicKey key valid built
  have own : deriveVkey crates suite name seed = .ok (crates.encode key) := by
    rw [deriveVkey, derived]
    simp only [encodeVkey, built]
  have renamed : ∀ suite' other, validateName other = .ok () → other ≠ name →
      loadSeed crates (seedPath outDir suite) suite' other
          (some (wholeFile crates name suite (crates.encode key) seed)) =
        .error (.nameMismatch (seedPath outDir suite) other name) := by
    intro suite' other valid' apart
    obtain ⟨_, _, -, -, derived'⟩ := deriveVkey_ok laws suite' valid' seed
    rw [loadSeed_wholeFile laws.canonical valid solid valid' derived', if_pos apart.symm]
  refine ⟨_, _, _, wrote, Folder.resolve_put, rfl, ?_, renamed, ?_, ?_, ?_, ?_⟩
  · rw [loadSeed_wholeFile laws.canonical valid solid valid own]
    simp
  · intro suite' other apart
    cases called : validateName other with
    | error e =>
        refine ⟨e, ?_⟩
        rw [loadSeed, called]
        rfl
    | ok accepted =>
        by_cases same : other = name
        · subst same
          obtain ⟨publicKey', key', -, built', derived'⟩ := deriveVkey_ok laws suite' valid seed
          refine ⟨.vkeyMismatch (seedPath outDir suite), ?_⟩
          rw [loadSeed_wholeFile laws.canonical valid solid valid derived', if_neg (by simp),
            if_pos (encode_ne_of_suite laws apart built built')]
        · exact ⟨_, renamed suite' other called same⟩
  · exact lines_seedFileText laws.canonical valid solid
  · intro line member
    exact header_commented member
  · exact seedLine_of_lines laws.canonical (lines_seedFileText laws.canonical valid solid)
      fun line member => header_commented member

open Reference in
theorem minted_seed_loads_back :
    ∃ generated after file,
      generateOne keygenCrates witnessName .mldsa44 "keys"
        (Reference.seed 1, (Sha256.hash (6 :: (Reference.seed 1).bytes)).bytes) none
        (fun _ => none) =
          (.ok generated, after) ∧
      after.resolve generated.seedFile = some file ∧
      loadSeed keygenCrates generated.seedFile .mldsa44 witnessName (some file) =
        .ok ⟨Reference.seed 1, generated.vkey⟩ ∧
      loadSeed keygenCrates generated.seedFile .mldsa44 origin (some file) =
        .error (.nameMismatch generated.seedFile origin witnessName) ∧
      ∃ e, loadSeed keygenCrates generated.seedFile .ed25519 witnessName (some file) =
        .error e := by
  have valid : validateName witnessName = .ok () := by decide
  obtain ⟨generated, after, file, wrote, found, -, loaded, renamed, crossed, -⟩ :=
    @seed_file_loads_back keygenCrates witnessName .mldsa44 (Reference.seed 1) _ keygenCrates_laws
      valid rfl "keys" (fun _ => none) rfl
  exact ⟨generated, after, file, wrote, found, loaded,
    renamed .mldsa44 origin (by decide) (by decide), crossed .ed25519 witnessName (by decide)⟩

end OneFile

section TwoFiles

variable {crates : ConfigCrates} {keys : KeygenCrates}

def startOnSeeds (crates : ConfigCrates) (keys : KeygenCrates)
    (config : LoadedConfig crates.toWitnessCrates) (seeds : Seeds) (locked : Bool)
    (file : List UInt8) :
    Except (StartupError KeygenError) (Witness crates.toWitnessCrates) × List UInt8 :=
  Witness.fromConfig crates.toWitnessCrates config.toConfig
    (loadSeed keys config.ed25519Seed .ed25519 config.name (seeds.resolve config.ed25519Seed))
    (loadSeed keys config.mldsa44Seed .mldsa44 config.name (seeds.resolve config.mldsa44Seed))
    locked file

def fileSeedLine (file : Option SeedFile) : Option Text :=
  match readToString (file.map SeedFile.bytes) with
  | .error _ => none
  | .ok text => seedLine text

theorem fileSeedLine_of_loads (canonical : keys.base64.Canonical) {path : String} {suite : Suite}
    {name text : Text} {file : Option SeedFile} {key : LoadedKey}
    (loads : Loads keys path suite name file key text) :
    fileSeedLine file = some (keys.base64.encode key.seed.bytes) := by
  obtain ⟨line, found, decoded⟩ := seedFromText_ok_iff.mp loads.decoded
  have encoded := (canonical.decode_iff line key.seed.bytes).mp decoded
  rw [fileSeedLine, loads.read, ← encoded]
  exact found

variable {config : LoadedConfig crates.toWitnessCrates} {seeds : Seeds} {locked : Bool}
  {file after : List UInt8} {witness : Witness crates.toWitnessCrates}

theorem startOnSeeds_ok (started : startOnSeeds crates keys config seeds locked file =
    (.ok witness, after)) :
    (∃ text, Loads keys config.ed25519Seed .ed25519 config.name
      (seeds.resolve config.ed25519Seed) witness.ed25519 text) ∧
    ∃ text, Loads keys config.mldsa44Seed .mldsa44 config.name
      (seeds.resolve config.mldsa44Seed) witness.mldsa44 text := by
  have starts := Witness.fromConfig_starts started
  exact ⟨loadSeed_ok starts.ed25519, loadSeed_ok starts.mldsa44⟩

theorem encoded_inj (canonical : keys.base64.Canonical) {seed seed' : Hash} :
    keys.base64.encode seed.bytes = keys.base64.encode seed'.bytes ↔ seed = seed' := by
  constructor
  · intro lines
    have bytes := (canonical.decode_iff _ _).mpr lines
    rw [(canonical.decode_iff _ _).mpr rfl] at bytes
    exact Hash.eq_of_bytes (Except.ok.inj bytes)
  · intro same
    rw [same]

def HasComment (label found : Text) (file : Option SeedFile) : Prop :=
  ∃ text, readToString (file.map SeedFile.bytes) = .ok text ∧ label ++ found ∈ Strings.lines text

theorem comments_of_loads {path : String} {suite : Suite} {name text : Text}
    {file : Option SeedFile} {key : LoadedKey} (loads : Loads keys path suite name file key text) :
    (∀ found, HasComment nameKey found file → found = name) ∧
      ∀ found, HasComment vkeyKey found file → found = key.vkey := by
  constructor
  · rintro found ⟨text', read, commented⟩
    rw [← Except.ok.inj (loads.read.symm.trans read)] at commented
    exact (crossCheck_ok loads.checked _ commented).1 found rfl
  · rintro found ⟨text', read, commented⟩
    rw [← Except.ok.inj (loads.read.symm.trans read)] at commented
    exact (crossCheck_ok loads.checked _ commented).2 found rfl

/-- The seeds of a started witness differ exactly when the seed lines of its two files do. The
checks see to the rest: two paths, one name, and no key in a comment of both files, so that neither
one commented file nor two copies of it ever serve both identities. -/
theorem seeds_differ_iff (canonical : keys.base64.Canonical) {raw : RawConfig} {managed : File}
    (accepted : validate crates raw managed = .ok config)
    (started : startOnSeeds crates keys config seeds locked file = (.ok witness, after)) :
    (witness.ed25519.seed ≠ witness.mldsa44.seed ↔
      fileSeedLine (seeds.resolve raw.keys.ed25519Seed) ≠
        fileSeedLine (seeds.resolve raw.keys.mldsa44Seed)) ∧
    Path.components raw.keys.ed25519Seed ≠ Path.components raw.keys.mldsa44Seed ∧
    (∀ found, HasComment nameKey found (seeds.resolve raw.keys.ed25519Seed) ∨
      HasComment nameKey found (seeds.resolve raw.keys.mldsa44Seed) → found = raw.name) ∧
    (keys.Laws → ∀ found, HasComment vkeyKey found (seeds.resolve raw.keys.ed25519Seed) →
      ¬HasComment vkeyKey found (seeds.resolve raw.keys.mldsa44Seed)) := by
  obtain ⟨entries, accepted⟩ := validate_accepted accepted
  obtain ⟨⟨_, ed25519⟩, ⟨_, mldsa44⟩⟩ := startOnSeeds_ok started
  have first := comments_of_loads ed25519
  have second := comments_of_loads mldsa44
  rw [accepted.ed25519Seed, accepted.name] at first
  rw [accepted.mldsa44Seed, accepted.name] at second
  refine ⟨?_, validateKeys_ok_iff.mp accepted.keys, ?_, ?_⟩
  · rw [← accepted.ed25519Seed, ← accepted.mldsa44Seed, fileSeedLine_of_loads canonical ed25519,
      fileSeedLine_of_loads canonical mldsa44, not_iff_not, Option.some.injEq]
    exact (encoded_inj canonical).symm
  · rintro found (commented | commented)
    · exact first.1 found commented
    · exact second.1 found commented
  · intro laws found commented commented'
    obtain ⟨_, key, -, built, encoded⟩ := ed25519.derived
    obtain ⟨_, key', -, built', encoded'⟩ := mldsa44.derived
    apply laws.suites _ _ _ _ _ _ built built'
    rw [← encoded, ← encoded', ← first.2 found commented, ← second.2 found commented']

section Shared

open Reference

/-- Two paths that are spelled differently. -/
def spelledKeys : RawKeys := ⟨"keys/seed", "./keys/seed"⟩

def spelledRaw : RawConfig := { rawConfig with keys := spelledKeys }

def spelledConfig : LoadedConfig witnessCrates :=
  { bareConfig with ed25519Seed := "keys/seed", mldsa44Seed := "./keys/seed" }

theorem spelledRaw_accepted :
    validate (syncCrates entries).toConfigCrates spelledRaw none = .ok spelledConfig :=
  rawConfig_withKeys (by decide)

def bareSeeds (ed25519 mldsa44 : Hash) : Seeds :=
  (Folder.put (fun _ => none) "keys/seed" (bareFile base64 ed25519)).put "./keys/seed"
    (bareFile base64 mldsa44)

theorem bareSeeds_first (ed25519 mldsa44 : Hash) :
    (bareSeeds ed25519 mldsa44).resolve "keys/seed" = some (bareFile base64 ed25519) := by
  apply Folder.resolve_file
  rw [bareSeeds, Folder.put_of_ne (by decide), Folder.put_self]

theorem bareSeeds_start (ed25519 mldsa44 : Hash) : ∃ witness,
    startOnSeeds (syncCrates entries).toConfigCrates keygenCrates spelledConfig
      (bareSeeds ed25519 mldsa44) false [] = (.ok witness, []) ∧
        witness.ed25519.seed = ed25519 ∧ witness.mldsa44.seed = mldsa44 := by
  have valid : validateName spelledConfig.name = .ok () := by decide
  obtain ⟨vkey, first⟩ := loadSeed_bareFile keygenCrates_laws "keys/seed" .ed25519 valid ed25519
  obtain ⟨vkey', second⟩ := loadSeed_bareFile keygenCrates_laws "./keys/seed" .mldsa44 valid mldsa44
  obtain ⟨witness, started, loaded, -⟩ := starts_with KeygenError spelledConfig.toConfig
    (List.cons_ne_nil _ _) ⟨ed25519, vkey⟩ ⟨mldsa44, vkey'⟩
  have behind : (bareSeeds ed25519 mldsa44).resolve "./keys/seed" =
      some (bareFile base64 mldsa44) := Folder.resolve_put
  refine ⟨witness, ?_, congrArg (fun identity => identity.ed25519.seed) loaded,
    congrArg (fun identity => identity.mldsa44.seed) loaded⟩
  unfold startOnSeeds
  rw [show (bareSeeds ed25519 mldsa44).resolve spelledConfig.ed25519Seed = _ from
    bareSeeds_first ed25519 mldsa44, show (bareSeeds ed25519 mldsa44).resolve
      spelledConfig.mldsa44Seed = _ from behind]
  exact (congrArg₂ (fun left right => Witness.fromConfig witnessCrates spelledConfig.toConfig left
    right false []) first second).trans started

theorem two_seeds_differ : ∃ witness,
    startOnSeeds (syncCrates entries).toConfigCrates keygenCrates spelledConfig
      (bareSeeds (seed 1) (seed 2)) false [] = (.ok witness, []) ∧
    (witness.ed25519.seed ≠ witness.mldsa44.seed ↔
      fileSeedLine ((bareSeeds (seed 1) (seed 2)).resolve "keys/seed") ≠
        fileSeedLine ((bareSeeds (seed 1) (seed 2)).resolve "./keys/seed")) ∧
    ∀ found, HasComment vkeyKey found ((bareSeeds (seed 1) (seed 2)).resolve "keys/seed") →
      ¬HasComment vkeyKey found ((bareSeeds (seed 1) (seed 2)).resolve "./keys/seed") := by
  obtain ⟨witness, started, -⟩ := bareSeeds_start (seed 1) (seed 2)
  obtain ⟨lines, -, -, apart⟩ := seeds_differ_iff base64_canonical spelledRaw_accepted started
  exact ⟨witness, started, lines, apart keygenCrates_laws⟩

/-- One comment-free file behind two spellings of its path serves both identities. -/
theorem one_seed_serves_both :
    validate (syncCrates entries).toConfigCrates spelledRaw none = .ok spelledConfig ∧
      ∃ witness, startOnSeeds (syncCrates entries).toConfigCrates keygenCrates spelledConfig
        (bareSeeds (seed 1) (seed 1)) false [] = (.ok witness, []) ∧
          witness.ed25519.seed = witness.mldsa44.seed := by
  obtain ⟨witness, started, first, second⟩ := bareSeeds_start (seed 1) (seed 1)
  exact ⟨spelledRaw_accepted, witness, started, first.trans second.symm⟩

end Shared

end TwoFiles

end MosskeysWitness
