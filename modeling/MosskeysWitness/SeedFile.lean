import MosskeysWitness.Config
import MosskeysWitness.Library.Folder

/-! Seed files: how key generation writes them, how a starting witness reads them back, and the
two scans that reading makes of one text. -/

namespace MosskeysWitness

/-- `Path::join` of a plain name. -/
def Path.join (dir name : String) : String :=
  if dir.isEmpty ∨ dir.toList.getLast? = some '/' then dir ++ name else dir ++ "/" ++ name

theorem Path.join_injective (dir : String) : Function.Injective (Path.join dir) := by
  intro left right same
  unfold Path.join at same
  split at same <;>
    simp only [String.ext_iff, String.toList_append] at same <;>
    exact String.ext (List.append_cancel_left same)

/-- The crypto crate's derivation of a public key from a seed, and the log crate's cosignature keys.
Key generation itself is a seed together with its public key. -/
structure KeygenCrates where
  base64 : Base64Engine
  VerifierKey : Type
  publicKey : Suite → Hash → Except String (List UInt8)
  newCosignature : Suite → Text → List UInt8 → Except String VerifierKey
  encode : VerifierKey → Text

/-- Every seed has a public key; a key of any valid name is built from it, and is encoded without
white space, in no other way than a key of the other suite. -/
structure KeygenCrates.Laws (crates : KeygenCrates) : Prop where
  canonical : crates.base64.Canonical
  derives : ∀ suite seed, ∃ publicKey, crates.publicKey suite seed = .ok publicKey
  accepts : ∀ suite name seed publicKey, validateName name = .ok () →
    crates.publicKey suite seed = .ok publicKey →
    ∃ key, crates.newCosignature suite name publicKey = .ok key
  solid : ∀ suite name publicKey key, validateName name = .ok () →
    crates.newCosignature suite name publicKey = .ok key →
    ∀ scalar ∈ crates.encode key, Strings.isWhitespace scalar = false
  suites : ∀ name name' publicKey publicKey' key key',
    crates.newCosignature .ed25519 name publicKey = .ok key →
    crates.newCosignature .mldsa44 name' publicKey' = .ok key' →
    crates.encode key ≠ crates.encode key'

/-- A file of key material, with its permission bits. -/
structure SeedFile where
  mode : UInt32
  bytes : List UInt8

abbrev Seeds := Folder String SeedFile

namespace Keygen

structure GeneratedKey where
  suite : Suite
  vkey : Text
  seedFile : String

structure Identity where
  name : Text
  keys : List GeneratedKey

def seedPath (outDir : String) (suite : Suite) : String := Path.join outDir (suite.tag ++ ".seed")

theorem seedPath_injective (outDir : String) : Function.Injective (seedPath outDir) := by
  intro left right same
  have names := Path.join_injective outDir same
  cases left <;> cases right <;> first | rfl | exact absurd names (by decide)

def titleLine : Text := "# mosskeys-witness secret seed — keep this file secret (mode 0600)".toList
def suiteKey : Text := "# suite: ".toList
def nameKey : Text := "# witness name: ".toList
def vkeyKey : Text := "# vkey: ".toList

def header (name : Text) (suite : Suite) (vkey : Text) : List Text :=
  [titleLine, suiteKey ++ suite.display ++ " cosigner".toList, nameKey ++ name, vkeyKey ++ vkey]

def seedFileText (base64 : Base64Engine) (name : Text) (suite : Suite) (vkey : Text) (seed : Hash) :
    Text :=
  (header name suite vkey ++ [base64.encode seed.bytes]).flatMap fun line => line ++ ['\n']

/-- How writing a seed file fails other than on a name that is taken: it cannot be created, or
`write_all` errors after some bytes, or `sync_all` errors after all of them. -/
inductive SeedFault where
  | create
  | write (written : Nat)
  | sync

/-- The mode is the one asked for; the process's mask leaves the owner's bits. -/
def ownerOnly : UInt32 := 0o600

variable (crates : KeygenCrates)

def writeSeedFile (path : String) (name : Text) (suite : Suite) (vkey : Text) (seed : Hash)
    (fault : Option SeedFault) (seeds : Seeds) : Except KeygenError Unit × Seeds :=
  let body := Utf8.encode (seedFileText crates.base64 name suite vkey seed)
  match seeds.createNew path ⟨ownerOnly, []⟩ with
  | none => (.error (.seedFileExists path), seeds)
  | some made =>
      match fault with
      | none => (.ok (), made.put path ⟨ownerOnly, body⟩)
      | some .create => (.error (.io path .create), seeds)
      | some (.write written) =>
          (.error (.io path .write), made.put path ⟨ownerOnly, body.take written⟩)
      | some .sync => (.error (.io path .sync), made.put path ⟨ownerOnly, body⟩)

/-- The public key's name-bound encoding. -/
def encodeVkey (suite : Suite) (name : Text) (publicKey : List UInt8) : Except KeygenError Text :=
  match crates.newCosignature suite name publicKey with
  | .error e => .error (.vkey suite e)
  | .ok key => .ok (crates.encode key)

/-- `minted` is what the suite's key generation returned. -/
def generateOne (name : Text) (suite : Suite) (outDir : String) (minted : Hash × List UInt8)
    (fault : Option SeedFault) (seeds : Seeds) : Except KeygenError GeneratedKey × Seeds :=
  match encodeVkey crates suite name minted.2 with
  | .error e => (.error e, seeds)
  | .ok vkey =>
      let path := seedPath outDir suite
      match writeSeedFile crates path name suite vkey minted.1 fault seeds with
      | (.error e, seeds) => (.error e, seeds)
      | (.ok (), seeds) => (.ok ⟨suite, vkey, path⟩, seeds)

section Read

variable (base64 : Base64Engine) (path : String)

/-- The loop of `seed_from_text` over the lines. -/
def seedFromLines : List Text → Except KeygenError Hash
  | [] => .error (.io path .invalidData)
  | raw :: more =>
      let line := Strings.trim raw
      if line = [] ∨ line.head? = some '#' then seedFromLines more
      else match base64.decode line with
        | .error _ => .error (.io path .invalidData)
        | .ok bytes =>
            if sized : bytes.length = 32 then .ok ⟨bytes, sized⟩
            else .error (.io path .invalidData)

def seedFromText (text : Text) : Except KeygenError Hash :=
  seedFromLines base64 path (Strings.lines text)

def readSeedFile (file : Option SeedFile) : Except KeygenError Hash :=
  match readToString (file.map SeedFile.bytes) with
  | .error e => .error (.io path e)
  | .ok text => seedFromText base64 path text

def checkOwnerOnly (file : Option SeedFile) : Except KeygenError Unit :=
  match file with
  | none => .error (.io path .notFound)
  | some file =>
      let mode := file.mode &&& 0o777
      if mode &&& 0o077 ≠ 0 then .error (.insecurePermissions path mode) else .ok ()

/-- The comments of `load_seed` that name an identity, over the lines. -/
def crossCheck (name vkey : Text) : List Text → Except KeygenError Unit
  | [] => .ok ()
  | line :: more =>
      match Strings.stripPrefix nameKey line with
      | some found =>
          if found ≠ name then .error (.nameMismatch path name found)
          else crossCheck name vkey more
      | none =>
          match Strings.stripPrefix vkeyKey line with
          | some found =>
              if found ≠ vkey then .error (.vkeyMismatch path) else crossCheck name vkey more
          | none => crossCheck name vkey more

end Read

def deriveVkey (suite : Suite) (name : Text) (seed : Hash) : Except KeygenError Text :=
  match crates.publicKey suite seed with
  | .error e => .error (.vkey suite e)
  | .ok publicKey => encodeVkey crates suite name publicKey

/-- `load_seed` on the file found at `path`. -/
def loadSeed (path : String) (suite : Suite) (name : Text) (file : Option SeedFile) :
    Except KeygenError LoadedKey := do
  validateName name
  checkOwnerOnly path file
  let text ← (readToString (file.map SeedFile.bytes)).mapError (.io path)
  let seed ← seedFromText crates.base64 path text
  let vkey ← deriveVkey crates suite name seed
  crossCheck path name vkey (Strings.lines text)
  pure ⟨seed, vkey⟩

section Scan

variable {crates} {base64 : Base64Engine} {path : String}

def IsComment (raw : Text) : Prop := (Strings.trim raw).head? = some '#'

/-- The first line that is neither blank nor a comment, without the white space around it. -/
def seedLine (text : Text) : Option Text :=
  ((Strings.lines text).map Strings.trim).find? fun line => line ≠ [] ∧ line.head? ≠ some '#'

theorem seedFromText_ok_iff {text : Text} {seed : Hash} :
    seedFromText base64 path text = .ok seed ↔
      ∃ line, seedLine text = some line ∧ base64.decode line = .ok seed.bytes := by
  unfold seedFromText seedLine
  induction Strings.lines text with
  | nil => simp [seedFromLines]
  | cons raw more ih =>
      rw [seedFromLines, List.map_cons]
      by_cases skipped : Strings.trim raw = [] ∨ (Strings.trim raw).head? = some '#'
      · rw [if_pos skipped, ih, List.find?_cons_of_neg]
        simpa [← not_or] using skipped
      · rw [if_neg skipped, List.find?_cons_of_pos (by simpa [not_or] using skipped)]
        rcases seed with ⟨bytes, sized⟩
        cases decoded : base64.decode (Strings.trim raw) with
        | error e => simp [decoded]
        | ok bytes' =>
            by_cases full : bytes'.length = 32
            · simp [decoded, full]
            · have other : bytes' ≠ bytes := by
                rintro rfl
                exact full sized
              simp [decoded, full, other]

theorem seedLine_commented {text seed : Text} {comments : List Text}
    (cut : Strings.lines text = comments ++ [seed]) (commented : ∀ line ∈ comments, IsComment line)
    (nonempty : seed ≠ []) (uncommented : seed.head? ≠ some '#')
    (solid : ∀ scalar ∈ seed, Strings.isWhitespace scalar = false) :
    seedLine text = some seed := by
  rw [seedLine, cut, List.map_append, List.find?_append, List.map_singleton,
    Strings.trim_eq_self solid]
  have passed : (comments.map Strings.trim).find? (fun line => line ≠ [] ∧ line.head? ≠ some '#') =
      none := by
    rw [List.find?_eq_none]
    intro line member
    obtain ⟨raw, inside, rfl⟩ := List.mem_map.mp member
    simp [show (Strings.trim raw).head? = some '#' from commented raw inside]
  rw [passed]
  simp [nonempty, uncommented]

variable {name vkey : Text}

theorem crossCheck_plain {line : Text} (unnamed : Strings.stripPrefix nameKey line = none)
    (unkeyed : Strings.stripPrefix vkeyKey line = none) (more : List Text) :
    crossCheck path name vkey (line :: more) = crossCheck path name vkey more := by
  rw [crossCheck, unnamed, unkeyed]

theorem crossCheck_name (found : Text) (more : List Text) :
    crossCheck path name vkey ((nameKey ++ found) :: more) =
      if found ≠ name then .error (.nameMismatch path name found)
      else crossCheck path name vkey more := by
  rw [crossCheck, Strings.stripPrefix_append]

theorem crossCheck_vkey (found : Text) (more : List Text) :
    crossCheck path name vkey ((vkeyKey ++ found) :: more) =
      if found ≠ vkey then .error (.vkeyMismatch path) else crossCheck path name vkey more := by
  have unnamed : Strings.stripPrefix nameKey (vkeyKey ++ found) = none := rfl
  rw [crossCheck, unnamed, Strings.stripPrefix_append]

theorem crossCheck_uncommented {line : Text} (uncommented : line.head? ≠ some '#') :
    crossCheck path name vkey [line] = .ok () := by
  have plain : ∀ key, key.head? = some '#' → Strings.stripPrefix key line = none := by
    intro key opens
    cases stripped : Strings.stripPrefix key line with
    | none => rfl
    | some rest =>
        have whole := Strings.stripPrefix_eq_some_iff.mp stripped
        rw [whole, List.head?_append, opens] at uncommented
        exact absurd rfl uncommented
  exact crossCheck_plain (plain nameKey rfl) (plain vkeyKey rfl) []

theorem crossCheck_ok {texts : List Text} (checked : crossCheck path name vkey texts = .ok ()) :
    ∀ line ∈ texts, (∀ found, line = nameKey ++ found → found = name) ∧
      ∀ found, line = vkeyKey ++ found → found = vkey := by
  induction texts with
  | nil => exact List.forall_mem_nil _
  | cons line more ih =>
      have both : crossCheck path name vkey more = .ok () ∧
          (∀ found, line = nameKey ++ found → found = name) ∧
            ∀ found, line = vkeyKey ++ found → found = vkey := by
        cases named : Strings.stripPrefix nameKey line with
        | some found =>
            have whole := Strings.stripPrefix_eq_some_iff.mp named
            subst whole
            rw [crossCheck_name] at checked
            split_ifs at checked with same
            refine ⟨checked, ?_, ?_⟩
            · intro other written
              rw [← List.append_cancel_left written]
              exact not_not.mp same
            · intro other written
              cases written
        | none =>
            have unnamed : ∀ found, line ≠ nameKey ++ found := by
              intro found written
              rw [written, Strings.stripPrefix_append] at named
              cases named
            cases keyed : Strings.stripPrefix vkeyKey line with
            | some found =>
                have whole := Strings.stripPrefix_eq_some_iff.mp keyed
                subst whole
                rw [crossCheck_vkey] at checked
                split_ifs at checked with same
                refine ⟨checked, fun other written => absurd written (unnamed other), ?_⟩
                intro other written
                rw [← List.append_cancel_left written]
                exact not_not.mp same
            | none =>
                rw [crossCheck_plain named keyed] at checked
                refine ⟨checked, fun other written => absurd written (unnamed other), ?_⟩
                intro other written
                rw [written, Strings.stripPrefix_append] at keyed
                cases keyed
      rw [List.forall_mem_cons]
      exact ⟨both.2, ih both.1⟩

/-- What the comments of a generated file are compared with: first the name, then the key. -/
theorem crossCheck_header (suite : Suite) (minted minted' : Text) {line : Text}
    (uncommented : line.head? ≠ some '#') :
    crossCheck path name vkey (header minted suite minted' ++ [line]) =
      if minted ≠ name then .error (.nameMismatch path name minted)
      else if minted' ≠ vkey then .error (.vkeyMismatch path) else .ok () := by
  have suiteLine : ∀ more, crossCheck path name vkey
      ((suiteKey ++ suite.display ++ " cosigner".toList) :: more) =
        crossCheck path name vkey more := by
    cases suite <;> exact crossCheck_plain rfl rfl
  simp only [header, List.cons_append, List.nil_append]
  rw [crossCheck_plain rfl rfl, suiteLine, crossCheck_name, crossCheck_vkey,
    crossCheck_uncommented uncommented]

end Scan

section Load

variable {crates} {name vkey : Text} {suite : Suite} {seed : Hash}

theorem encode_solid {engine : Base64Engine} (canonical : engine.Canonical) (bytes : List UInt8) :
    ∀ scalar ∈ engine.encode bytes, Strings.isWhitespace scalar = false := by
  intro scalar member
  rcases canonical.alphabet bytes scalar member with letter | rfl | rfl | rfl
  · exact Strings.isWhitespace_alphanum letter
  · decide
  · decide
  · decide

theorem encode_uncommented {engine : Base64Engine} (canonical : engine.Canonical)
    (bytes : List UInt8) : (engine.encode bytes).head? ≠ some '#' := by
  intro opens
  have allowed := canonical.alphabet bytes '#' (List.mem_of_head? opens)
  revert allowed
  decide

theorem header_opens {line : Text} (member : line ∈ header name suite vkey) :
    line.head? = some '#' := by
  simp only [header, List.mem_cons, List.not_mem_nil, or_false] at member
  rcases member with rfl | rfl | rfl | rfl <;> rfl

theorem header_commented {line : Text} (member : line ∈ header name suite vkey) :
    IsComment line :=
  Strings.trim_head (header_opens member) (by decide)

theorem plain_seedFileText (canonical : crates.base64.Canonical)
    (valid : validateName name = .ok ())
    (solid : ∀ scalar ∈ vkey, Strings.isWhitespace scalar = false) :
    ∀ line ∈ header name suite vkey ++ [crates.base64.encode seed.bytes],
      '\n' ∉ line ∧ line.getLast? ≠ some '\r' := by
  have unbroken : ∀ {line : Text}, (∀ scalar ∈ line, scalar = ' ' ∨
      Strings.isWhitespace scalar = false) → '\n' ∉ line ∧ line.getLast? ≠ some '\r' := by
    intro line clean
    constructor
    · intro member
      exact absurd (clean _ member) (by decide)
    · intro last
      exact absurd (clean _ (List.mem_of_getLast? last)) (by decide)
  intro line member
  apply unbroken
  simp only [header, List.cons_append, List.nil_append, List.mem_cons, List.not_mem_nil, or_false]
    at member
  have named := (validateName_ok_iff.mp valid).2
  have fixed : ∀ {text : Text},
      (text.all fun scalar => scalar = ' ' || !Strings.isWhitespace scalar) = true →
      ∀ scalar ∈ text, scalar = ' ' ∨ Strings.isWhitespace scalar = false := by
    intro text clean scalar inside
    simpa using List.all_eq_true.mp clean scalar inside
  rcases member with rfl | rfl | rfl | rfl | rfl
  · exact fixed (by decide)
  · apply fixed
    cases suite <;> decide
  · rw [List.forall_mem_append]
    exact ⟨fixed (by decide), fun scalar inside => Or.inr (named scalar inside).1⟩
  · rw [List.forall_mem_append]
    exact ⟨fixed (by decide), fun scalar inside => Or.inr (solid scalar inside)⟩
  · intro scalar inside
    exact Or.inr (encode_solid canonical seed.bytes scalar inside)

theorem lines_seedFileText (canonical : crates.base64.Canonical)
    (valid : validateName name = .ok ())
    (solid : ∀ scalar ∈ vkey, Strings.isWhitespace scalar = false) :
    Strings.lines (seedFileText crates.base64 name suite vkey seed) =
      header name suite vkey ++ [crates.base64.encode seed.bytes] :=
  Strings.lines_flatMap (plain_seedFileText canonical valid solid)

theorem seed_ne_nil (seed : Hash) : seed.bytes ≠ [] := by
  intro empty
  have length := seed.length_eq
  rw [empty] at length
  cases length

theorem seedLine_of_lines (canonical : crates.base64.Canonical) {comments : List Text} {text : Text}
    (cut : Strings.lines text = comments ++ [crates.base64.encode seed.bytes])
    (commented : ∀ line ∈ comments, IsComment line) :
    seedLine text = some (crates.base64.encode seed.bytes) :=
  seedLine_commented cut commented (canonical.encode_ne_nil seed.bytes (seed_ne_nil seed))
    (encode_uncommented canonical seed.bytes) (encode_solid canonical seed.bytes)

theorem loadSeed_of_lines (canonical : crates.base64.Canonical) {path : String}
    {called vkey : Text} {comments : List Text} {text : Text}
    (valid : validateName called = .ok ())
    (cut : Strings.lines text = comments ++ [crates.base64.encode seed.bytes])
    (commented : ∀ line ∈ comments, IsComment line)
    (derived : deriveVkey crates suite called seed = .ok vkey) :
    loadSeed crates path suite called (some ⟨ownerOnly, Utf8.encode text⟩) =
      (crossCheck path called vkey (comments ++ [crates.base64.encode seed.bytes])).map
        fun _ => ⟨seed, vkey⟩ := by
  have bits : (ownerOnly &&& 0o777) &&& 0o077 = 0 := by decide
  have owned : checkOwnerOnly path (some ⟨ownerOnly, Utf8.encode text⟩) = .ok () := by
    simp [checkOwnerOnly, bits]
  have read :
      (readToString (Option.map SeedFile.bytes (some ⟨ownerOnly, Utf8.encode text⟩))).mapError
      (KeygenError.io path) = .ok text := by
    rw [Option.map_some, readToString_encode]
    rfl
  have found : seedFromText crates.base64 path text = .ok seed :=
    seedFromText_ok_iff.mpr ⟨_, seedLine_of_lines canonical cut commented,
      (canonical.decode_iff _ _).mpr rfl⟩
  simp only [loadSeed, valid, owned, read, found, derived, cut, bind, Except.bind]
  cases crossCheck path called vkey (comments ++ [crates.base64.encode seed.bytes]) <;> rfl

def wholeFile (crates : KeygenCrates) (name : Text) (suite : Suite) (vkey : Text) (seed : Hash) :
    SeedFile :=
  ⟨ownerOnly, Utf8.encode (seedFileText crates.base64 name suite vkey seed)⟩

/-- A file with the seed line and no comments, as an operator may write it. -/
def bareFile (base64 : Base64Engine) (seed : Hash) : SeedFile :=
  ⟨ownerOnly, Utf8.encode (base64.encode seed.bytes ++ ['\n'])⟩

/-- A generated file is read for a name and a suite: the name in it is compared first, then the key
in it with the one derived from the seed. -/
theorem loadSeed_wholeFile (canonical : crates.base64.Canonical) {path : String}
    (valid : validateName name = .ok ())
    (solid : ∀ scalar ∈ vkey, Strings.isWhitespace scalar = false) {suite' : Suite}
    {called vkey' : Text} (valid' : validateName called = .ok ())
    (derived : deriveVkey crates suite' called seed = .ok vkey') :
    loadSeed crates path suite' called (some (wholeFile crates name suite vkey seed)) =
      if name ≠ called then .error (.nameMismatch path called name)
      else if vkey ≠ vkey' then .error (.vkeyMismatch path) else .ok ⟨seed, vkey'⟩ := by
  rw [wholeFile, loadSeed_of_lines canonical valid' (lines_seedFileText canonical valid solid)
    (fun line member => header_commented member) derived,
    crossCheck_header suite name vkey (encode_uncommented canonical seed.bytes)]
  split
  · rfl
  · split <;> rfl

end Load

section Generated

variable {crates} {name : Text} {suite : Suite} {seed : Hash} {publicKey : List UInt8}

theorem deriveVkey_ok (laws : crates.Laws) (suite : Suite) (valid : validateName name = .ok ())
    (seed : Hash) : ∃ publicKey key, crates.publicKey suite seed = .ok publicKey ∧
      crates.newCosignature suite name publicKey = .ok key ∧
      deriveVkey crates suite name seed = .ok (crates.encode key) := by
  obtain ⟨publicKey, derived⟩ := laws.derives suite seed
  obtain ⟨key, built⟩ := laws.accepts suite name seed publicKey valid derived
  refine ⟨publicKey, key, derived, built, ?_⟩
  rw [deriveVkey, derived]
  simp only [encodeVkey, built]

theorem generateOne_ok (laws : crates.Laws) (valid : validateName name = .ok ())
    (derived : crates.publicKey suite seed = .ok publicKey) {outDir : String} {seeds : Seeds}
    (free : seeds (seedPath outDir suite) = none) :
    ∃ key, crates.newCosignature suite name publicKey = .ok key ∧
      generateOne crates name suite outDir (seed, publicKey) none seeds =
        (.ok ⟨suite, crates.encode key, seedPath outDir suite⟩,
          seeds.put (seedPath outDir suite)
            (wholeFile crates name suite (crates.encode key) seed)) := by
  obtain ⟨key, built⟩ := laws.accepts suite name seed publicKey valid derived
  have created : seeds.createNew (seedPath outDir suite) ⟨ownerOnly, []⟩ =
      some (seeds.put (seedPath outDir suite) ⟨ownerOnly, []⟩) :=
    Folder.createNew_eq_some.mpr ⟨free, rfl⟩
  refine ⟨key, built, ?_⟩
  simp only [generateOne, encodeVkey, built, writeSeedFile, created, Folder.put_put]
  rfl

theorem encode_ne_of_suite (laws : crates.Laws) {suite' : Suite} (apart : suite' ≠ suite)
    {name' : Text} {publicKey' : List UInt8} {key key' : crates.VerifierKey}
    (built : crates.newCosignature suite name publicKey = .ok key)
    (built' : crates.newCosignature suite' name' publicKey' = .ok key') :
    crates.encode key ≠ crates.encode key' := by
  cases suite with
  | ed25519 =>
      cases suite' with
      | ed25519 => exact absurd rfl apart
      | mldsa44 => exact laws.suites _ _ _ _ _ _ built built'
  | mldsa44 =>
      cases suite' with
      | ed25519 => exact (laws.suites _ _ _ _ _ _ built' built).symm
      | mldsa44 => exact absurd rfl apart

theorem loadSeed_bareFile (laws : crates.Laws) (path : String) (suite : Suite)
    (valid : validateName name = .ok ()) (seed : Hash) :
    ∃ vkey, loadSeed crates path suite name (some (bareFile crates.base64 seed)) =
      .ok ⟨seed, vkey⟩ := by
  have canonical := laws.canonical
  have unbroken : ∀ line ∈ [crates.base64.encode seed.bytes],
      '\n' ∉ line ∧ line.getLast? ≠ some '\r' := by
    rw [List.forall_mem_singleton]
    refine ⟨canonical.encode_single seed.bytes, ?_⟩
    intro last
    exact absurd (encode_solid canonical seed.bytes _ (List.mem_of_getLast? last)) (by decide)
  have cut : Strings.lines (crates.base64.encode seed.bytes ++ ['\n']) =
      [] ++ [crates.base64.encode seed.bytes] := by
    simpa using Strings.lines_flatMap unbroken
  obtain ⟨_, key, -, -, derived⟩ := deriveVkey_ok laws suite valid seed
  refine ⟨crates.encode key, ?_⟩
  rw [bareFile, loadSeed_of_lines canonical valid cut (List.forall_mem_nil _) derived,
    List.nil_append, crossCheck_uncommented (encode_uncommented canonical seed.bytes)]
  rfl

theorem encodeVkey_ok {vkey : Text} (encoded : encodeVkey crates suite name publicKey = .ok vkey) :
    ∃ key, crates.newCosignature suite name publicKey = .ok key ∧ vkey = crates.encode key := by
  unfold encodeVkey at encoded
  split at encoded
  · cases encoded
  · rename_i key built
    cases encoded
    exact ⟨key, built, rfl⟩

/-- What a seed file that loads has been checked for. -/
structure Loads (crates : KeygenCrates) (path : String) (suite : Suite) (name : Text)
    (file : Option SeedFile) (key : LoadedKey) (text : Text) : Prop where
  read : readToString (file.map SeedFile.bytes) = .ok text
  decoded : seedFromText crates.base64 path text = .ok key.seed
  derived : ∃ publicKey cosigner, crates.publicKey suite key.seed = .ok publicKey ∧
    crates.newCosignature suite name publicKey = .ok cosigner ∧ key.vkey = crates.encode cosigner
  checked : crossCheck path name key.vkey (Strings.lines text) = .ok ()

theorem loadSeed_ok {path : String} {file : Option SeedFile} {key : LoadedKey}
    (loaded : loadSeed crates path suite name file = .ok key) :
    ∃ text, Loads crates path suite name file key text := by
  obtain ⟨⟨⟩, -, loaded⟩ := bind_ok loaded
  obtain ⟨⟨⟩, -, loaded⟩ := bind_ok loaded
  obtain ⟨text, read, loaded⟩ := bind_ok loaded
  obtain ⟨seed, decoded, loaded⟩ := bind_ok loaded
  obtain ⟨vkey, derived, loaded⟩ := bind_ok loaded
  obtain ⟨⟨⟩, checked, loaded⟩ := bind_ok loaded
  cases loaded
  unfold deriveVkey at derived
  split at derived
  · cases derived
  · rename_i publicKey found
    obtain ⟨cosigner, built, rfl⟩ := encodeVkey_ok derived
    exact ⟨text, mapError_ok read, decoded, ⟨publicKey, cosigner, found, built, rfl⟩, checked⟩

theorem readSeedFile_of_loadSeed {path : String} {file : Option SeedFile} {key : LoadedKey}
    (loaded : loadSeed crates path suite name file = .ok key) :
    readSeedFile crates.base64 path file = .ok key.seed := by
  obtain ⟨text, loads⟩ := loadSeed_ok loaded
  rw [readSeedFile, loads.read]
  exact loads.decoded

end Generated

end Keygen

end MosskeysWitness
