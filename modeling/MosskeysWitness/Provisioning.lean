import MosskeysWitness.Library.Transition
import MosskeysWitness.Minting

/-! Seed files as a starting witness finds them, at any moment of any runs of key generation: none
of them stands for a key other than the one that was minted into it. -/

namespace MosskeysWitness.Keygen

section Torn

variable {crates : KeygenCrates} {name vkey : Text} {suite : Suite} {seed : Hash}
  {publicKey : List UInt8}

/-- `STANDARD` pads its output to groups of four. -/
def Padded (base64 : Base64Engine) : Prop :=
  ∀ bytes, (base64.encode bytes).length = 4 * ((bytes.length + 2) / 3)

theorem commented_of_prefix {line tail : Text} (member : line ∈ header name suite vkey)
    (starts : tail <+: line) (nonempty : tail ≠ []) : IsComment tail := by
  have opens := header_opens member
  rcases starts with ⟨rest, rfl⟩
  rw [List.head?_append_of_ne_nil _ nonempty] at opens
  exact Strings.trim_head opens (by decide)

theorem seedLine_of_comments {text : Text}
    (comments : ∀ line ∈ Strings.lines text, IsComment line) : seedLine text = none := by
  rw [seedLine, List.find?_eq_none]
  intro line member
  rcases List.mem_map.mp member with ⟨raw, inside, rfl⟩
  simp [show (Strings.trim raw).head? = some '#' from comments raw inside]

/-- What a start of a seed file's text has as its seed line is all of its seed, behind all of its
comments. -/
theorem lines_of_torn (laws : crates.Laws) (padded : Padded crates.base64)
    (valid : validateName name = .ok ())
    (solid : ∀ scalar ∈ vkey, Strings.isWhitespace scalar = false) {text : Text} {found : Hash}
    (starts : text <+: seedFileText crates.base64 name suite vkey seed)
    (decoded : seedLine text = some (crates.base64.encode found.bytes)) :
    Strings.lines text = header name suite vkey ++ [crates.base64.encode seed.bytes] ∧
      found = seed := by
  have plain : ∀ line ∈ header name suite vkey ++ [crates.base64.encode seed.bytes],
      '\n' ∉ line ∧ line.getLast? ≠ some '\r' := plain_seedFileText laws.canonical valid solid
  rcases Strings.prefix_flatMap starts with ⟨whole, rest, tail, parts, shape, cut⟩
  have unended : '\n' ∉ tail := by
    rcases cut with rfl | ⟨line, more, rfl, part⟩
    · exact List.not_mem_nil
    · exact fun member => (plain line (parts ▸ by simp)).1 (part.subset member)
  have lines := Strings.lines_flatMap_append
    (fun line member => plain line (parts ▸ List.mem_append_left _ member)) unended
  rw [← shape] at lines
  -- Without the seed line in front of it there are only comments, the last one maybe torn.
  have short : ∀ middle, header name suite vkey = whole ++ middle →
      (tail = [] ∨ ∃ line ∈ middle, tail <+: line) → False := by
    intro middle front torn
    have comments : seedLine text = none := by
      apply seedLine_of_comments
      rw [lines, List.forall_mem_append]
      refine ⟨fun line member => header_commented (front ▸ List.mem_append_left _ member), ?_⟩
      split_ifs with empty
      · exact List.forall_mem_nil _
      · rcases torn with none | ⟨line, member, part⟩
        · exact absurd none empty
        · rw [List.forall_mem_singleton]
          exact commented_of_prefix (front ▸ List.mem_append_right _ member) part empty
    rw [comments] at decoded
    cases decoded
  have full : Strings.lines text = header name suite vkey ++ [crates.base64.encode seed.bytes] →
      found = seed := by
    intro lines
    have line := seedLine_of_lines laws.canonical lines fun line member => header_commented member
    have encoded := Option.some.inj (decoded.symm.trans line)
    have read := (laws.canonical.decode_iff _ seed.bytes).mpr encoded
    rw [(laws.canonical.decode_iff _ found.bytes).mpr rfl] at read
    exact Hash.eq_of_bytes (Except.ok.inj read)
  rcases List.eq_nil_or_concat rest with rfl | ⟨middle, last, rfl⟩
  · rcases cut with rfl | ⟨line, more, impossible, -⟩
    · rw [List.append_nil] at parts
      rw [if_pos rfl, List.append_nil, ← parts] at lines
      exact ⟨lines, full lines⟩
    · cases impossible
  · rw [List.concat_eq_append] at parts cut
    rw [← List.append_assoc] at parts
    rcases List.append_inj' parts rfl with ⟨front, only⟩
    cases only
    cases middle with
    | cons line middle =>
        refine (short _ front ?_).elim
        rcases cut with none | ⟨line', more, opens, part⟩
        · exact Or.inl none
        · cases opens
          exact Or.inr ⟨line, List.mem_cons_self, part⟩
    | nil =>
        rw [List.append_nil] at front
        by_cases empty : tail = []
        · exact (short [] (by simpa using front) (Or.inl empty)).elim
        · rcases cut with none | ⟨line, more, opens, part⟩
          · exact absurd none empty
          · cases opens
            rw [if_neg empty, ← front] at lines
            have uncommented : tail.head? ≠ some '#' := by
              intro opens
              rcases part with ⟨more, whole'⟩
              apply encode_uncommented laws.canonical seed.bytes
              rw [← whole', List.head?_append_of_ne_nil _ empty, opens]
            have line := seedLine_commented lines (fun line member => header_commented member)
              empty uncommented fun scalar member =>
                encode_solid laws.canonical seed.bytes scalar (part.subset member)
            have encoded : tail = crates.base64.encode found.bytes :=
              Option.some.inj (line.symm.trans decoded)
            have sized : tail.length = (crates.base64.encode seed.bytes).length := by
              rw [encoded, padded, padded, found.length_eq, seed.length_eq]
            rw [part.eq_of_length sized] at lines
            exact ⟨lines, full lines⟩

theorem loadSeed_torn (laws : crates.Laws) (padded : Padded crates.base64)
    (valid : validateName name = .ok ())
    (encoded : encodeVkey crates suite name publicKey = .ok vkey) {bytes : List UInt8}
    (starts : bytes <+: Utf8.encode (seedFileText crates.base64 name suite vkey seed))
    {mode : UInt32} {path : String} {suite' : Suite} {called : Text} {key : LoadedKey}
    (loaded : loadSeed crates path suite' called (some ⟨mode, bytes⟩) = .ok key) :
    key = ⟨seed, vkey⟩ ∧ called = name ∧ suite' = suite := by
  rcases encodeVkey_ok encoded with ⟨cosigner, built, rfl⟩
  have solid := laws.solid suite name publicKey cosigner valid built
  rcases loadSeed_ok loaded with ⟨text, loads⟩
  have whole : Utf8.encode text = bytes := by
    have read := loads.read
    rw [Option.map_some, readToString] at read
    split at read
    · cases read
    · rename_i decoded
      cases read
      exact Utf8.encode_of_decode decoded
  rw [← whole] at starts
  rcases seedFromText_ok_iff.mp loads.decoded with ⟨line, found, decoded⟩
  rw [(laws.canonical.decode_iff line key.seed.bytes).mp decoded] at found
  obtain ⟨lines, seeds⟩ :=
    lines_of_torn laws padded valid solid (Utf8.prefix_of_encode_prefix starts) found
  have checked := loads.checked
  rw [lines, crossCheck_header suite name _ (encode_uncommented laws.canonical seed.bytes)]
    at checked
  split_ifs at checked with names keys
  rw [not_not] at names keys
  refine ⟨?_, names.symm, ?_⟩
  · rw [← seeds, keys]
  · by_contra apart
    rcases loads.derived with ⟨_, cosigner', -, built', encoded'⟩
    exact encode_ne_of_suite laws apart built built' (keys.trans encoded')

end Torn

section Runs

variable {crates : KeygenCrates} {outDir : String} {dir dir' : OutDir}
  {process process' : Process} {world world' : World}

/-- How far a run is with the file of a suite: what is left to write, or nothing and the key is
pushed. -/
inductive Status (outDir : String) (process : Process) (suite : Suite) (vkey : Text) :
    List UInt8 → Prop
  | writing {left rest} : process.phase = .write suite vkey left rest →
      Status outDir process suite vkey left
  | pushed : ⟨suite, vkey, seedPath outDir suite⟩ ∈ process.keys →
      Status outDir process suite vkey []

/-- The file that a run has created for a suite: the seed's text, as far as it is written. -/
def Minted (crates : KeygenCrates) (outDir : String) (dir : OutDir) (process : Process)
    (suite : Suite) : Prop :=
  ∃ seed publicKey vkey written left,
    crates.publicKey suite seed = .ok publicKey ∧
    encodeVkey crates suite process.name publicKey = .ok vkey ∧
    dir.seeds (seedPath outDir suite) = some (.file ⟨ownerOnly, written⟩) ∧
    written ++ left = Utf8.encode (seedFileText crates.base64 process.name suite vkey seed) ∧
    Status outDir process suite vkey left

def Proceeds (process : Process) : Prop :=
  match process.phase with
  | .start => process.created = [] ∧ process.keys = []
  | .preflight _ | .ensure =>
      validateName process.name = .ok () ∧ process.created = [] ∧ process.keys = []
  | .mint rest => validateName process.name = .ok () ∧ Suite.all = process.created ++ rest ∧
      process.keys.map GeneratedKey.suite = process.created
  | .write suite _ _ rest => validateName process.name = .ok () ∧
      Suite.all = process.created ++ rest ∧
      process.keys.map GeneratedKey.suite ++ [suite] = process.created
  | .returned (.ok identity) => validateName process.name = .ok () ∧
      identity = ⟨process.name, process.keys⟩ ∧ process.created = Suite.all ∧
      process.keys.map GeneratedKey.suite = Suite.all
  | .returned (.error _) => process.created = [] ∨ validateName process.name = .ok ()

theorem Proceeds.valid (proceeds : Proceeds process) {suite : Suite}
    (member : suite ∈ process.created) : validateName process.name = .ok () := by
  unfold Proceeds at proceeds
  split at proceeds
  · simp [proceeds.1] at member
  · exact proceeds.1
  · exact proceeds.1
  · exact proceeds.1
  · exact proceeds.1
  · exact proceeds.1
  · rcases proceeds with none | valid
    · simp [none] at member
    · exact valid

theorem Moves.proceeds (moves : Moves crates outDir (dir, process) (dir', process'))
    (proceeds : Proceeds process) : Proceeds process' := by
  cases moves with
  | refuses starting refused =>
      simp only [Proceeds, starting] at proceeds
      exact Or.inl proceeds.1
  | validates starting valid =>
      simp only [Proceeds, starting] at proceeds
      exact ⟨valid, proceeds⟩
  | finds checking found =>
      simp only [Proceeds, checking] at proceeds
      exact Or.inl proceeds.2.1
  | passes checking missing =>
      simp only [Proceeds, checking] at proceeds
      exact proceeds
  | clears checking =>
      simp only [Proceeds, checking] at proceeds
      exact proceeds
  | ensures ensuring =>
      simp only [Proceeds, ensuring] at proceeds
      rcases proceeds with ⟨valid, created, keys⟩
      exact ⟨valid, by simp [created], by simp [created, keys]⟩
  | underivable minting derived failed =>
      simp only [Proceeds, minting] at proceeds
      exact Or.inr proceeds.1
  | creates minting derived encoded created =>
      simp only [Proceeds, minting] at proceeds
      rcases proceeds with ⟨valid, whole, keys⟩
      exact ⟨valid, by simpa using whole, by simp [keys]⟩
  | taken minting derived encoded exists' =>
      simp only [Proceeds, minting] at proceeds
      exact Or.inr proceeds.1
  | writes writing found =>
      simp only [Proceeds, writing] at proceeds
      exact proceeds
  | syncs writing =>
      simp only [Proceeds, writing] at proceeds
      rcases proceeds with ⟨valid, whole, keys⟩
      exact ⟨valid, whole, by simp [keys]⟩
  | finishes minting =>
      simp only [Proceeds, minting, List.append_nil] at proceeds
      rcases proceeds with ⟨valid, whole, keys⟩
      exact ⟨valid, rfl, whole.symm, by rw [whole, keys]⟩

theorem Minted.kept {suite : Suite} (minted : Minted crates outDir dir process suite)
    (same : dir'.seeds (seedPath outDir suite) = dir.seeds (seedPath outDir suite)) :
    Minted crates outDir dir' process suite := by
  rcases minted with ⟨seed, publicKey, vkey, written, left, derived, encoded, found, text, status⟩
  exact ⟨seed, publicKey, vkey, written, left, derived, encoded, same.trans found, text, status⟩

theorem Minted.done {suite : Suite} (minted : Minted crates outDir dir process suite)
    (same : dir'.seeds (seedPath outDir suite) = dir.seeds (seedPath outDir suite))
    (name : process'.name = process.name) (keys : process.keys ⊆ process'.keys)
    (elsewhere : ∀ vkey left rest, process.phase ≠ .write suite vkey left rest) :
    Minted crates outDir dir' process' suite := by
  rcases minted with ⟨seed, publicKey, vkey, written, left, derived, encoded, found, text, status⟩
  cases status with
  | writing writing => exact absurd writing (elsewhere _ _ _)
  | pushed pushed =>
      exact ⟨seed, publicKey, vkey, written, [], derived, name ▸ encoded, same.trans found,
        name ▸ text, .pushed (keys pushed)⟩

theorem Proceeds.unpushed (proceeds : Proceeds process) {suite : Suite} {vkey vkey' : Text}
    {left : List UInt8} {rest : List Suite} {path : String}
    (writing : process.phase = .write suite vkey left rest) :
    ⟨suite, vkey', path⟩ ∉ process.keys := by
  intro pushed
  simp only [Proceeds, writing] at proceeds
  rcases proceeds with ⟨-, whole, keys⟩
  have once : (process.keys.map GeneratedKey.suite ++ [suite]).Nodup := by
    rw [keys]
    exact List.Nodup.of_append_left (whole ▸ (by decide : Suite.all.Nodup))
  exact (List.disjoint_of_nodup_append once) (List.mem_map_of_mem pushed)
    (List.mem_singleton_self _)

theorem Moves.minted (moves : Moves crates outDir (dir, process) (dir', process'))
    (proceeds : Proceeds process)
    (own : ∀ suite ∈ process.created, Minted crates outDir dir process suite) :
    ∀ suite ∈ process'.created, Minted crates outDir dir' process' suite := by
  have idle : ∀ {dir' : OutDir} {process' : Process}, dir'.seeds = dir.seeds →
      process'.name = process.name → process'.created = process.created →
      process.keys ⊆ process'.keys →
      (∀ suite vkey left rest, process.phase ≠ .write suite vkey left rest) →
      ∀ suite ∈ process'.created, Minted crates outDir dir' process' suite := by
    intro dir' process' seeds name created keys elsewhere suite member
    exact (own suite (created ▸ member)).done (congrFun seeds _) name keys (elsewhere suite)
  cases moves with
  | creates minting derived encoded created =>
      rename_i suite rest seed publicKey vkey made
      rcases Folder.createNew_eq_some.mp created with ⟨free, rfl⟩
      intro suite' member
      rcases List.mem_append.mp member with old | new
      · have minted := own suite' old
        have apart : seedPath outDir suite' ≠ seedPath outDir suite := by
          intro same
          rcases minted with ⟨_, _, _, _, _, -, -, found, -⟩
          rw [same, free] at found
          cases found
        refine minted.done (Folder.put_of_ne apart) rfl (List.Subset.refl _) ?_
        intro vkey left rest writing
        rw [minting] at writing
        cases writing
      · rw [List.mem_singleton.mp new]
        exact ⟨seed, publicKey, vkey, [], _, derived, encoded, Folder.put_self, List.nil_append _,
          .writing rfl⟩
  | writes writing found =>
      rename_i suite vkey chunk left rest mode written
      intro suite' member
      by_cases same : suite' = suite
      · subst same
        obtain ⟨seed, publicKey, vkey', written', left', derived, encoded, found', text, status⟩ :=
          own suite' member
        rw [found] at found'
        cases found'
        cases status with
        | pushed pushed => exact absurd pushed (proceeds.unpushed writing)
        | writing writing' =>
            rw [writing] at writing'
            cases writing'
            refine ⟨seed, publicKey, vkey, written ++ chunk, left, derived, encoded,
              Folder.put_self, ?_, .writing rfl⟩
            rw [List.append_assoc, text]
      · refine (own suite' member).done (Folder.put_of_ne ((seedPath_injective outDir).ne same)) rfl
          (List.Subset.refl _) ?_
        intro vkey' left' rest' writing'
        rw [writing] at writing'
        cases writing'
        exact same rfl
  | syncs writing =>
      rename_i suite vkey rest
      intro suite' member
      by_cases same : suite' = suite
      · subst same
        obtain ⟨seed, publicKey, vkey', written, left, derived, encoded, found, text, status⟩ :=
          own suite' member
        cases status with
        | pushed pushed => exact absurd pushed (proceeds.unpushed writing)
        | writing writing' =>
            rw [writing] at writing'
            cases writing'
            exact ⟨seed, publicKey, vkey, written, [], derived, encoded, found, text,
              .pushed (List.mem_append_right _ (List.mem_singleton_self _))⟩
      · refine (own suite' member).done rfl rfl (List.subset_append_left _ _) ?_
        intro vkey' left' rest' writing'
        rw [writing] at writing'
        cases writing'
        exact same rfl
  | refuses phase | validates phase | finds phase | passes phase | clears phase | ensures phase
  | underivable phase | taken phase | finishes phase =>
      refine idle rfl rfl rfl (List.Subset.refl _) ?_
      intro suite vkey left rest writing
      rw [phase] at writing
      cases writing

/-- What is so of every directory that runs of key generation work on: nobody's files are anyone
else's, and each holds what its run has written of it. -/
structure Provisioned (crates : KeygenCrates) (outDir : String) (world : World) : Prop where
  unique : ∀ run other, ∀ suite ∈ (world.processes run).created,
    suite ∈ (world.processes other).created → run = other
  minted : ∀ run, ∀ suite ∈ (world.processes run).created,
    Minted crates outDir world.dir (world.processes run) suite
  proceeds : ∀ run, Proceeds (world.processes run)

theorem Minted.present {suite : Suite} (minted : Minted crates outDir dir process suite) :
    dir.seeds (seedPath outDir suite) ≠ none := by
  rcases minted with ⟨_, _, _, _, _, -, -, found, -⟩
  rw [found]
  exact nofun

theorem Provisioned.others (provisioned : Provisioned crates outDir world) {run : Nat}
    (effect : Effect outDir world.dir (world.processes run) dir' process') {other : Nat}
    (apart : other ≠ run) {suite : Suite} (member : suite ∈ (world.processes other).created) :
    dir'.seeds (seedPath outDir suite) = world.dir.seeds (seedPath outDir suite) ∧
      suite ∉ process'.created := by
  have elsewhere : suite ∉ (world.processes run).created := by
    intro own
    exact apart (provisioned.unique other run suite member own)
  cases effect with
  | none seeds created => exact ⟨congrFun seeds _, created ▸ elsewhere⟩
  | creates suite' file free seeds created =>
      have differs : suite ≠ suite' := by
        rintro rfl
        exact (provisioned.minted other suite member).present free
      rw [seeds, Folder.put_of_ne ((seedPath_injective outDir).ne differs), created]
      simp [elsewhere, differs]
  | writes suite' file writing seeds created =>
      have own : suite' ∈ (world.processes run).created := by
        have proceeds := provisioned.proceeds run
        simp only [Proceeds, writing] at proceeds
        rw [← proceeds.2.2]
        exact List.mem_append_right _ (List.mem_singleton_self _)
      have differs : suite ≠ suite' := by
        rintro rfl
        exact elsewhere own
      rw [seeds, Folder.put_of_ne ((seedPath_injective outDir).ne differs), created]
      exact ⟨rfl, elsewhere⟩

theorem Provisioned.step (provisioned : Provisioned crates outDir world)
    (step : Step crates outDir world world') : Provisioned crates outDir world' := by
  cases step with
  | @move dir' process' run moves =>
      have others := @Provisioned.others _ _ _ _ _ provisioned run moves.effect
      refine ⟨?_, ?_, ?_⟩
      · intro left right suite member member'
        dsimp only at member member'
        by_cases first : left = run <;> by_cases second : right = run
        · rw [first, second]
        · rw [first, Function.update_self] at member
          rw [Function.update_of_ne second] at member'
          exact absurd member (others second member').2
        · rw [Function.update_of_ne first] at member
          rw [second, Function.update_self] at member'
          exact absurd member' (others first member).2
        · rw [Function.update_of_ne first] at member
          rw [Function.update_of_ne second] at member'
          exact provisioned.unique left right suite member member'
      · intro other suite member
        dsimp only at member ⊢
        by_cases own : other = run
        · rw [own, Function.update_self] at member ⊢
          exact moves.minted (provisioned.proceeds run) (provisioned.minted run) suite member
        · rw [Function.update_of_ne own] at member ⊢
          exact (provisioned.minted other suite member).kept (others own member).1
      · intro other
        dsimp only
        by_cases own : other = run
        · rw [own, Function.update_self]
          exact moves.proceeds (provisioned.proceeds run)
        · rw [Function.update_of_ne own]
          exact provisioned.proceeds other

theorem provisioned_of_reachable {before : OutDir}
    (reachable : Reachable crates outDir before world) : Provisioned crates outDir world := by
  rcases reachable with ⟨names, run⟩
  refine Transition.run_keeps (fun _ _ provisioned step => provisioned.step step) run ⟨?_, ?_, ?_⟩
  · intro _ _ _ member
    cases member
  · intro _ _ member
    cases member
  · intro _
    exact ⟨rfl, rfl⟩

/-- At any moment of any runs, a seed file that a run has created loads as the key the run minted
into it for its name or not at all; and once the run has returned an identity, both files load as
the keys in it. -/
theorem minted_keys_load (laws : crates.Laws) (padded : Padded crates.base64) {before : OutDir}
    (reachable : Reachable crates outDir before world) (run : Nat) :
    (∀ suite ∈ (world.processes run).created, ∃ file key,
      world.dir.seeds.resolve (seedPath outDir suite) = some file ∧ file.mode = ownerOnly ∧
      deriveVkey crates suite (world.processes run).name key.seed = .ok key.vkey ∧
      ∀ path suite' called found, loadSeed crates path suite' called (some file) = .ok found →
        found = key ∧ called = (world.processes run).name ∧ suite' = suite) ∧
    ∀ identity, (world.processes run).phase = .returned (.ok identity) →
      identity.name = (world.processes run).name ∧
      identity.keys.map GeneratedKey.suite = Suite.all ∧
      ∀ key ∈ identity.keys, key.seedFile = seedPath outDir key.suite ∧
        ∃ seed, loadSeed crates key.seedFile key.suite identity.name
          (world.dir.seeds.resolve key.seedFile) = .ok ⟨seed, key.vkey⟩ := by
  have provisioned := provisioned_of_reachable reachable
  have proceeds := provisioned.proceeds run
  constructor
  · intro suite member
    have valid := proceeds.valid member
    obtain ⟨seed, publicKey, vkey, written, left, derived, encoded, found, text, -⟩ :=
      provisioned.minted run suite member
    refine ⟨_, ⟨seed, vkey⟩, Folder.resolve_file found, rfl, ?_, ?_⟩
    · rw [deriveVkey, derived]
      exact encoded
    · intro path suite' called key loaded
      exact loadSeed_torn laws padded valid encoded ⟨left, text⟩ loaded
  · intro identity returned
    simp only [Proceeds, returned] at proceeds
    rcases proceeds with ⟨valid, rfl, created, keys⟩
    refine ⟨rfl, keys, ?_⟩
    intro key member
    have listed : key.suite ∈ (world.processes run).created := by
      rw [created, ← keys]
      exact List.mem_map_of_mem member
    obtain ⟨seed, publicKey, vkey, written, left, derived, encoded, found, text, status⟩ :=
      provisioned.minted run key.suite listed
    cases status with
    | writing writing =>
        rw [returned] at writing
        cases writing
    | pushed pushed =>
        -- Only one key of a suite is pushed.
        have once : ((world.processes run).keys.map GeneratedKey.suite).Nodup := by
          rw [keys]
          decide
        have same := List.inj_on_of_nodup_map once member pushed rfl
        have path : key.seedFile = seedPath outDir key.suite := congrArg GeneratedKey.seedFile same
        have reported : key.vkey = vkey := congrArg GeneratedKey.vkey same
        rcases encodeVkey_ok encoded with ⟨cosigner, built, shown⟩
        have solid : ∀ scalar ∈ vkey, Strings.isWhitespace scalar = false :=
          shown ▸ laws.solid key.suite _ publicKey cosigner valid built
        have again : deriveVkey crates key.suite (world.processes run).name seed = .ok vkey := by
          rw [deriveVkey, derived]
          exact encoded
        have whole : (⟨ownerOnly, written⟩ : SeedFile) =
            wholeFile crates (world.processes run).name key.suite vkey seed := by
          rw [wholeFile, ← text, List.append_nil]
        refine ⟨path, seed, ?_⟩
        rw [path, Folder.resolve_file found, whole,
          loadSeed_wholeFile laws.canonical valid solid valid again, if_neg (by simp),
          if_neg (by simp), reported]

end Runs

section Example

open Reference

variable {crates : KeygenCrates}

theorem base64_padded : Padded base64 := KeyLine.length_base64

theorem alone_returns (laws : crates.Laws) {outDir : String} {name : Text}
    (valid : validateName name = .ok ()) (seed : Hash) :
    ∃ dir last identity, Alone crates outDir (emptyOutDir, ⟨name, .start, [], []⟩) (dir, last) ∧
      last.phase = .returned (.ok identity) := by
  have checked : preflight outDir emptyOutDir.seeds Suite.all = .ok () := by
    simp [Suite.all, preflight, emptyOutDir, Folder.resolve_absent]
  rcases laws.derives .ed25519 seed with ⟨first, derived⟩
  rcases laws.accepts .ed25519 name seed first valid derived with ⟨key, built⟩
  rcases laws.derives .mldsa44 seed with ⟨second, derived'⟩
  rcases laws.accepts .mldsa44 name seed second valid derived' with ⟨key', built'⟩
  have encoded : encodeVkey crates .ed25519 name first = .ok (crates.encode key) := by
    simp only [encodeVkey, built]
  have encoded' : encodeVkey crates .mldsa44 name second = .ok (crates.encode key') := by
    simp only [encodeVkey, built']
  have apart : seedPath outDir .mldsa44 ≠ seedPath outDir .ed25519 :=
    (seedPath_injective outDir).ne (by decide)
  have mints := @mint_alone crates outDir { emptyOutDir with made := true }
    ⟨name, .mint Suite.all, [], []⟩ .ed25519 [.mldsa44] seed first _ rfl derived encoded rfl
  have mints' := @mint_alone crates outDir
    { emptyOutDir with
      made := true
      seeds := emptyOutDir.seeds.put (seedPath outDir .ed25519)
        (wholeFile crates name .ed25519 (crates.encode key) seed) }
    ⟨name, .mint [.mldsa44], [⟨.ed25519, crates.encode key, seedPath outDir .ed25519⟩],
      [.ed25519]⟩ .mldsa44 [] seed second _ rfl derived' encoded' (Folder.put_of_ne apart)
  have whole := ((start_alone valid checked).trans (mints.trans mints')).tail (.finishes rfl)
  exact ⟨_, _, _, whole, rfl⟩

theorem minted_directory_loads : ∃ world identity,
    Reachable keygenCrates "keys" emptyOutDir world ∧
      (world.processes 0).phase = .returned (.ok identity) ∧
      identity.keys.map GeneratedKey.suite = Suite.all ∧
      ∀ key ∈ identity.keys, ∃ seed, loadSeed keygenCrates key.seedFile key.suite identity.name
        (world.dir.seeds.resolve key.seedFile) = .ok ⟨seed, key.vkey⟩ := by
  have valid : validateName witnessName = .ok () := by decide
  obtain ⟨dir, last, identity, alone, returned⟩ :=
    @alone_returns keygenCrates keygenCrates_laws "keys" witnessName valid (seed 1)
  let start := World.begin emptyOutDir fun _ => witnessName
  have reachable : Reachable keygenCrates "keys" emptyOutDir
      ⟨dir, Function.update start.processes 0 last⟩ :=
    ⟨fun _ => witnessName, @Alone.steps _ _ _ _ start 0 alone⟩
  have phase : (Function.update start.processes 0 last 0).phase = .returned (.ok identity) := by
    rw [Function.update_self, returned]
  rcases minted_keys_load keygenCrates_laws base64_padded reachable 0 with ⟨-, loads⟩
  rcases loads identity phase with ⟨-, suites, each⟩
  exact ⟨_, identity, reachable, phase, suites, fun key member => (each key member).2⟩

end Example

end MosskeysWitness.Keygen
