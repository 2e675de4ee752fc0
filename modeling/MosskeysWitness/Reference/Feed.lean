import MosskeysWitness.Reference.Run
import MosskeysWitness.Discovery

/-! Crates for the discovery feed: key lines, the feed's JSON and the managed file's TOML, each
with a reader of the forms its writer produces. -/

namespace MosskeysWitness.Reference

namespace Array

variable {α : Type} (write : α → Text) (read : Text → Option (α × Text)) (separator : Text)

def writeItems : List α → Text
  | [] => [']']
  | [item] => write item ++ [']']
  | item :: items => write item ++ (separator ++ writeItems items)

def readItems : Nat → Text → Option (List α × Text)
  | 0, text => (Json.literal [']'] text).map fun rest => ([], rest)
  | fuel + 1, text =>
      match Json.literal [']'] text with
      | some rest => some ([], rest)
      | none => do
          let (item, text) ← read text
          match Json.literal separator text with
          | some text => do
              let (items, text) ← readItems fuel text
              pure (item :: items, text)
          | none => do
              let text ← Json.literal [']'] text
              pure ([item], text)

variable {write read separator}

theorem literal_other {expected text : Text} (other : expected.head? ≠ text.head?)
    (nonempty : expected ≠ []) : Json.literal expected text = none := by
  rw [Json.literal, if_neg]
  intro starts
  rcases List.isPrefixOf_iff_prefix.mp starts with ⟨rest, whole⟩
  apply other
  rw [← whole, List.head?_append_of_ne_nil _ nonempty]

theorem readItems_writeItems
    (round : ∀ item rest, read (write item ++ rest) = some (item, rest))
    (opens : ∀ item rest, (write item ++ rest).head? ≠ some ']')
    (separates : separator.head? ≠ some ']') (nonempty : separator ≠ []) {items : List α}
    {fuel : Nat} (enough : items.length ≤ fuel) (rest : Text) :
    readItems read separator fuel (writeItems write separator items ++ rest) =
      some (items, rest) := by
  have closing : Json.literal [']'] (']' :: rest) = some rest := Json.literal_append [']'] rest
  induction items generalizing fuel with
  | nil =>
      cases fuel with
      | zero => simp [readItems, writeItems, closing]
      | succ fuel => simp [readItems, writeItems, closing]
  | cons item items ih =>
      cases fuel with
      | zero => simp at enough
      | succ fuel =>
          have more : ∀ text, Json.literal [']'] (write item ++ text) = none := by
            intro text
            exact literal_other (Ne.symm (opens item text)) (List.cons_ne_nil _ _)
          cases items with
          | nil =>
              have last : Json.literal separator (']' :: rest) = none :=
                literal_other separates nonempty
              simp [readItems, writeItems, more, round, last, closing]
          | cons second items =>
              have front := ih (by simpa using enough)
              simp [readItems, writeItems, more, round, Json.literal_append, front]

theorem length_writeItems (nonempty : separator ≠ []) (items : List α) :
    items.length ≤ (writeItems write separator items).length := by
  have apart : 0 < separator.length := List.length_pos_of_ne_nil nonempty
  induction items with
  | nil => exact Nat.zero_le _
  | cons item items ih =>
      cases items with
      | nil => simp [writeItems]
      | cons second items =>
          rw [writeItems, List.length_append, List.length_append, List.length_cons]
          · omega
          · simp

end Array

namespace KeyLine

/-- Name, key id and key, with the type byte of Ed25519. -/
def encode (key : Key) : Text :=
  key.name ++ '+' :: (hex (keyId 1 key) ++ '+' :: Base64.encode (1 :: key.seed.bytes))

/-- The last two parts are of fixed length, and a line is read only in its canonical form. -/
def parse (line : Text) : Except String Key :=
  match Base64.decode (line.drop (line.length - 44)) with
  | .ok (_ :: seed) =>
      if sized : seed.length = 32 then
        let key : Key := ⟨line.take (line.length - 54), ⟨seed, sized⟩⟩
        if encode key = line then .ok key else .error "malformed key line"
      else .error "malformed key"
  | _ => .error "malformed key"

theorem length_hex (bytes : List UInt8) : (hex bytes).length = 2 * bytes.length := by
  induction bytes with
  | nil => rfl
  | cons byte bytes ih =>
      rw [hex, List.flatMap_cons, List.length_append]
      change 2 + (hex bytes).length = _
      rw [ih, List.length_cons]
      omega

theorem length_base64 (bytes : List UInt8) :
    (Base64.encode bytes).length = 4 * ((bytes.length + 2) / 3) := by
  induction bytes using Base64.encode.induct with
  | case1 => rfl
  | case2 a => simp [Base64.encode]
  | case3 a b => simp [Base64.encode]
  | case4 a b c rest ih =>
      rw [Base64.encode, List.length_append, ih]
      simp only [List.length_cons, List.length_nil]
      omega

theorem parse_encode (key : Key) : parse (encode key) = .ok key := by
  have blob : (Base64.encode (1 :: key.seed.bytes)).length = 44 := by
    rw [length_base64, List.length_cons, key.seed.length_eq]
  have tag : (hex (keyId 1 key)).length = 8 := by
    rw [length_hex, keyId, List.length_take, Hash.length_eq]
    rfl
  have length : (encode key).length = key.name.length + 54 := by
    simp only [encode, List.length_append, List.length_cons, blob, tag]
  have front : (encode key).take ((encode key).length - 54) = key.name := by
    rw [length, Nat.add_sub_cancel, encode]
    exact List.take_left' rfl
  have back : (encode key).drop ((encode key).length - 44) =
      Base64.encode (1 :: key.seed.bytes) := by
    have cut : encode key = (key.name ++ '+' :: (hex (keyId 1 key) ++ ['+'])) ++
        Base64.encode (1 :: key.seed.bytes) := by
      simp [encode]
    rw [length]
    conv_lhs => rw [cut]
    apply List.drop_left'
    simp only [List.length_append, List.length_cons, List.length_nil, tag]
    omega
  have decoded : Base64.decode (Base64.encode (1 :: key.seed.bytes)) =
      .ok (1 :: key.seed.bytes) := (base64_canonical.decode_iff _ _).mpr rfl
  unfold parse
  rw [back, decoded]
  simp only [key.seed.length_eq, dif_pos, front, if_true]

end KeyLine

def quote (text : Text) : Text := '"' :: (Json.escape text ++ ['"'])

def readQuoted (text : Text) : Option (Text × Text) := Json.literal ['"'] text >>= Json.readString

theorem readQuoted_quote (text rest : Text) :
    readQuoted (quote text ++ rest) = some (text, rest) := by
  have front : Json.literal ['"'] ('"' :: (Json.escape text ++ '"' :: rest)) =
      some (Json.escape text ++ '"' :: rest) := Json.literal_append ['"'] _
  simp [readQuoted, quote, front, Json.readString_escape]

namespace FeedJson

def opening : Text := "\x7b\"logs\":[".toList
def originKey : Text := "\x7b\"origin\":".toList
def hybridKey : Text := ",\"vkeys\":\x7b\"hybrid\":".toList
def ed25519Key : Text := ",\"ed25519\":".toList
def closing : Text := "\x7d\x7d".toList

def writeEntry (entry : FeedLog) : Text :=
  originKey ++ (quote entry.origin ++ (hybridKey ++ (quote entry.vkeys.hybrid ++
    (ed25519Key ++ (quote entry.vkeys.ed25519 ++ closing)))))

def readEntry (text : Text) : Option (FeedLog × Text) := do
  let text ← Json.literal originKey text
  let (origin, text) ← readQuoted text
  let text ← Json.literal hybridKey text
  let (hybrid, text) ← readQuoted text
  let text ← Json.literal ed25519Key text
  let (ed25519, text) ← readQuoted text
  let text ← Json.literal closing text
  pure (⟨origin, ⟨hybrid, ed25519⟩⟩, text)

def write (feed : Feed) : Text :=
  opening ++ (Array.writeItems writeEntry [','] feed.logs ++ ['\x7d'])

def read (text : Text) : Except String Feed :=
  match (Json.literal opening text).bind (Array.readItems readEntry [','] text.length) with
  | some (logs, ['\x7d']) => .ok ⟨logs⟩
  | _ => .error "malformed feed"

theorem readEntry_writeEntry (entry : FeedLog) (rest : Text) :
    readEntry (writeEntry entry ++ rest) = some (entry, rest) := by
  simp only [writeEntry, List.append_assoc, readEntry, Json.literal_append, readQuoted_quote,
    Option.bind_eq_bind, Option.bind_some]
  rfl

theorem writeEntry_opens (entry : FeedLog) (rest : Text) :
    (writeEntry entry ++ rest).head? ≠ some ']' := by
  rw [writeEntry, List.append_assoc, List.head?_append_of_ne_nil _ (by decide)]
  decide

theorem read_write (feed : Feed) : read (write feed) = .ok feed := by
  have comma : ([','] : Text).head? ≠ some ']' := by decide
  have nonempty : ([','] : Text) ≠ [] := List.cons_ne_nil _ _
  have enough : feed.logs.length ≤ (write feed).length := by
    have items : feed.logs.length ≤ (Array.writeItems writeEntry [','] feed.logs).length :=
      Array.length_writeItems nonempty feed.logs
    simp only [write, List.length_append]
    omega
  have entries := Array.readItems_writeItems readEntry_writeEntry writeEntry_opens comma nonempty
    enough ['\x7d']
  have front : Json.literal opening (write feed) =
      some (Array.writeItems writeEntry [','] feed.logs ++ ['\x7d']) := Json.literal_append _ _
  rw [read, front, Option.bind_some, entries]
  rfl

end FeedJson

namespace Toml

def stanza : Text := "[[log]]\n".toList
def noLogs : Text := "log = []\n".toList
def originKey : Text := "origin = ".toList
def vkeysKey : Text := "vkeys = [".toList

def originLine (origin : Text) : Text := originKey ++ (quote origin ++ ['\n'])

def vkeysLine (vkeys : List Text) : Text :=
  vkeysKey ++ (Array.writeItems quote [',', ' '] vkeys ++ ['\n'])

def lines : List ManagedLog → List Text
  | [] => []
  | [log] => [stanza, originLine log.origin, vkeysLine log.vkeys]
  | log :: logs => stanza :: originLine log.origin :: vkeysLine log.vkeys :: ['\n'] :: lines logs

def write (managed : ManagedFile) : Text :=
  if managed.logs = [] then noLogs else (lines managed.logs).flatten

def readOrigin (line : Text) : Option Text := do
  let text ← Json.literal originKey line
  let (origin, text) ← readQuoted text
  let _ ← Json.literal ['\n'] text
  pure origin

def readVkeys (line : Text) : Option (List Text) := do
  let text ← Json.literal vkeysKey line
  let (vkeys, text) ← Array.readItems readQuoted [',', ' '] line.length text
  let _ ← Json.literal ['\n'] text
  pure vkeys

/-- Comment lines and empty lines are skipped. -/
def readLines : List Text → Option (List RawLog)
  | [] => some []
  | line :: rest =>
      if line = ['\n'] ∨ line.head? = some '#' ∨ line = noLogs then readLines rest
      else if line = stanza then
        match rest with
        | origin :: vkeys :: rest => do
            let log : RawLog := ⟨← readOrigin origin, ← readVkeys vkeys⟩
            return log :: (← readLines rest)
        | _ => none
      else none

def read (text : Text) : Except String RawManaged :=
  match readLines (Lines.split '\n' text) with
  | some logs => .ok ⟨logs⟩
  | none => .error "invalid TOML"

theorem quote_opens (text rest : Text) : (quote text ++ rest).head? ≠ some ']' := by
  simp [quote]

theorem readOrigin_originLine (origin : Text) : readOrigin (originLine origin) = some origin := by
  have front : Json.literal originKey (originLine origin) = some (quote origin ++ ['\n']) :=
    Json.literal_append _ _
  rw [readOrigin, front, Option.bind_eq_bind, Option.bind_some, readQuoted_quote]
  rfl

theorem readVkeys_vkeysLine (vkeys : List Text) : readVkeys (vkeysLine vkeys) = some vkeys := by
  have comma : ([',', ' '] : Text).head? ≠ some ']' := by decide
  have nonempty : ([',', ' '] : Text) ≠ [] := List.cons_ne_nil _ _
  have enough : vkeys.length ≤ (vkeysLine vkeys).length := by
    have items : vkeys.length ≤ (Array.writeItems quote [',', ' '] vkeys).length :=
      Array.length_writeItems nonempty vkeys
    simp only [vkeysLine, List.length_append]
    omega
  have items := Array.readItems_writeItems readQuoted_quote quote_opens comma nonempty enough ['\n']
  have front : Json.literal vkeysKey (vkeysLine vkeys) =
      some (Array.writeItems quote [',', ' '] vkeys ++ ['\n']) := Json.literal_append _ _
  rw [readVkeys, front, Option.bind_eq_bind, Option.bind_some, items]
  rfl

theorem quote_single (text : Text) : '\n' ∉ quote text := by
  have printable : '\n' ∉ Json.escape text := by
    intro member
    exact absurd (Json.printable_escape member) (by decide)
  simp [quote, printable]

theorem items_single (items : List Text) : '\n' ∉ Array.writeItems quote [',', ' '] items := by
  induction items with
  | nil => decide
  | cons item items ih =>
      cases items with
      | nil => simp [Array.writeItems, quote_single]
      | cons second items => simp [Array.writeItems, quote_single, ih]

theorem lines_terminated (logs : List ManagedLog) :
    ∀ line ∈ lines logs, Lines.Terminated '\n' line := by
  have front : Lines.Terminated '\n' stanza := ⟨"[[log]]".toList, by decide, by decide⟩
  have origin : ∀ origin, Lines.Terminated '\n' (originLine origin) := by
    intro origin
    refine ⟨originKey ++ quote origin, ?_, by simp [originLine]⟩
    have key : '\n' ∉ originKey := by decide
    simp [key, quote_single]
  have vkeys : ∀ vkeys, Lines.Terminated '\n' (vkeysLine vkeys) := by
    intro vkeys
    refine ⟨vkeysKey ++ Array.writeItems quote [',', ' '] vkeys, ?_, by simp [vkeysLine]⟩
    have key : '\n' ∉ vkeysKey := by decide
    simp [key, items_single]
  have blank : Lines.Terminated '\n' ['\n'] := ⟨[], List.not_mem_nil, rfl⟩
  induction logs with
  | nil => simp [lines]
  | cons log logs ih =>
      cases logs with
      | nil => simp [lines, front, origin, vkeys]
      | cons second logs =>
          rw [lines]
          · simp only [List.forall_mem_cons]
            exact ⟨front, origin _, vkeys _, blank, ih⟩
          · exact List.cons_ne_nil _ _

theorem readLines_skip {line : Text}
    (skipped : line = ['\n'] ∨ line.head? = some '#' ∨ line = noLogs)
    (rest : List Text) : readLines (line :: rest) = readLines rest := by
  rw [readLines.eq_def]
  exact if_pos skipped

theorem readLines_stanza (log : ManagedLog) (rest : List Text) :
    readLines (stanza :: originLine log.origin :: vkeysLine log.vkeys :: rest) =
      (readLines rest).map fun logs => ⟨log.origin, log.vkeys⟩ :: logs := by
  have other : ¬ (stanza = ['\n'] ∨ stanza.head? = some '#' ∨ stanza = noLogs) := by decide
  rw [readLines, if_neg other, if_pos rfl]
  simp only [readOrigin_originLine, readVkeys_vkeysLine]
  cases readLines rest <;> rfl

theorem readLines_lines (logs : List ManagedLog) :
    readLines (lines logs) = some (ManagedFile.raw ⟨logs⟩).logs := by
  induction logs with
  | nil => rfl
  | cons log logs ih =>
      cases logs with
      | nil =>
          rw [lines, readLines_stanza]
          rfl
      | cons second logs =>
          rw [lines]
          · rw [readLines_stanza, readLines_skip (Or.inl rfl), ih]
            rfl
          · exact List.cons_ne_nil _ _

theorem read_document (managed : ManagedFile) :
    readLines (Lines.split '\n' (write managed)) = some managed.raw.logs := by
  rcases managed with ⟨logs⟩
  rw [write]
  split_ifs with empty
  · dsimp only at empty
    subst empty
    have single : Lines.split '\n' noLogs = [noLogs] := by decide
    rw [single, readLines_skip (Or.inr (Or.inr rfl))]
    rfl
  · have alone := Lines.split_flatten_append (lines_terminated logs) []
    rw [List.append_nil, Lines.split_nil, List.append_nil] at alone
    rw [alone, readLines_lines]

theorem readLines_commented {document text : Text} (commented : Commented document text) :
    readLines (Lines.split '\n' text) = readLines (Lines.split '\n' document) := by
  induction commented with
  | document => rfl
  | @blank text _ ih =>
      have cut : Lines.split '\n' ('\n' :: text) = ['\n'] :: Lines.split '\n' text :=
        Lines.split_body ([] : Text) text List.not_mem_nil
      rw [cut, readLines_skip (Or.inl rfl), ih]
  | @comment line text clean _ ih =>
      have free : '\n' ∉ '#' :: line := by
        intro member
        rcases List.mem_cons.mp member with hash | inside
        · cases hash
        · exact absurd (clean _ inside) (by decide)
      have cut := Lines.split_body ('#' :: line) text free
      rw [List.cons_append] at cut
      rw [cut, readLines_skip (Or.inr (Or.inl rfl)), ih]

end Toml

/-- The crates with key lines, TOML and JSON. No config file is read in these runs. -/
@[reducible] def syncCrates (entries : Nat → List UInt8) : SyncCrates where
  toWitnessCrates := crates entries
  parseKey := KeyLine.parse
  encodeKey := KeyLine.encode
  readConfig := fun _ => .error "not read"
  readManaged := Toml.read
  readFeed := FeedJson.read
  writeManaged := fun managed => .ok (Toml.write managed)

theorem syncCrates_roundTrips (entries : Nat → List UInt8) : (syncCrates entries).RoundTrips where
  parse_encode := KeyLine.parse_encode
  writes := fun managed => ⟨Toml.write managed, rfl⟩
  read_write := by
    intro managed document text written commented
    cases written
    change Toml.read text = _
    rw [Toml.read, Toml.readLines_commented commented, Toml.read_document]

/-- An entry a feed can serve: a log with a hybrid and an Ed25519 key. -/
structure Listed where
  origin : Text
  named : origin ≠ []
  hybrid : Key
  ed25519 : Key

def Listed.log {entries : Nat → List UInt8} (listed : Listed) :
    LogConfig (syncCrates entries).toWitnessCrates :=
  ⟨listed.origin, [listed.hybrid, listed.ed25519], listed.named, List.cons_ne_nil _ _⟩

def Listed.entry (listed : Listed) : FeedLog :=
  ⟨listed.origin, ⟨KeyLine.encode listed.hybrid, KeyLine.encode listed.ed25519⟩⟩

theorem Listed.validates (listed : Listed) (entries : Nat → List UInt8) :
    Validates listed.entry.raw (listed.log : LogConfig (syncCrates entries).toWitnessCrates) :=
  ⟨rfl, .cons (KeyLine.parse_encode _) (.cons (KeyLine.parse_encode _) .nil)⟩

def feedBody (served : List Listed) : Text := FeedJson.write ⟨served.map Listed.entry⟩

theorem parseFeed_feedBody (entries : Nat → List UInt8) {served : List Listed}
    (nonempty : served ≠ []) (distinct : (served.map Listed.origin).Nodup) :
    parseFeed (syncCrates entries) (feedBody served) = .ok (served.map Listed.log) := by
  have read : (syncCrates entries).readFeed (feedBody served) = .ok ⟨served.map Listed.entry⟩ :=
    FeedJson.read_write _
  have valid : validateEntries (syncCrates entries).toConfigCrates
      ((served.map Listed.entry).map FeedLog.raw) ∅ = .ok (served.map Listed.log) := by
    rw [validateEntries_ok_iff]
    refine ⟨?_, ?_, by simp⟩
    · rw [List.map_map, List.forall₂_map_left_iff, List.forall₂_map_right_iff, List.forall₂_same]
      intro listed _
      exact listed.validates entries
    · rw [List.map_map, List.map_map]
      exact distinct
  have some_ : served.map Listed.entry ≠ [] := by
    rw [ne_eq, List.map_eq_nil_iff]
    exact nonempty
  exact parseFeed_of_valid read some_ valid

def feedUrl : Text := "https://feed.example/logs".toList

def alpha : Listed := ⟨['a'], by decide, ⟨['a'], seed 3⟩, ⟨['a'], seed 4⟩⟩

def beta : Listed := ⟨['b'], by decide, ⟨['b'], seed 5⟩, ⟨['b'], seed 6⟩⟩

def rekeyed : Listed := ⟨['a'], by decide, ⟨['a'], seed 7⟩, ⟨['a'], seed 8⟩⟩

/-- A log whose origin has a quote and a newline in it. -/
def quoted : Listed := ⟨['"', 'c', '\n'], by decide, ⟨['c'], seed 7⟩, ⟨['c'], seed 8⟩⟩

def rawConfig : RawConfig where
  name := witnessName
  listen := "0.0.0.0:80".toList
  stateFile := "state.jsonl"
  keys := ⟨"ed25519.seed", "mldsa44.seed"⟩
  logs := [alpha.entry.raw]
  discovery := none

def bareConfig : LoadedConfig witnessCrates where
  name := witnessName
  apiPrefix := []
  stateFile := "state.jsonl"
  manualLogs := [alpha.log]
  logs := [alpha.log]
  listen := .v4 [0, 0, 0, 0] 80
  ed25519Seed := "ed25519.seed"
  mldsa44Seed := "mldsa44.seed"
  discovery := none

theorem rawConfig_withKeys {keys : RawKeys} (apart : validateKeys keys = .ok ()) :
    validate (syncCrates entries).toConfigCrates { rawConfig with keys } none =
      .ok { bareConfig with ed25519Seed := keys.ed25519Seed, mldsa44Seed := keys.mldsa44Seed } := by
  have name : validateName rawConfig.name = .ok () := by decide
  have path : prefixFromName rawConfig.name = .ok [] := by decide
  have listen : parseListen rawConfig.listen = .ok (.v4 [0, 0, 0, 0] 80) := by decide
  have logs : validateEntries (syncCrates entries).toConfigCrates rawConfig.logs ∅ =
      .ok [alpha.log] := by
    rw [validateEntries_ok_iff]
    exact ⟨.cons (alpha.validates entries) .nil, List.nodup_singleton _, by simp⟩
  simp only [validate, name, path, listen, apart, logs, bind, Except.bind, pure, Except.pure]
  rfl

theorem rawConfig_accepted :
    validate (syncCrates entries).toConfigCrates rawConfig none = .ok bareConfig :=
  rawConfig_withKeys (by decide)

theorem rawConfig_withLogs {logs : List RawLog} {listed : List (LogConfig witnessCrates)}
    (valid : validateEntries (syncCrates entries).toConfigCrates logs ∅ = .ok listed) :
    validate (syncCrates entries).toConfigCrates { rawConfig with logs } none =
      .ok { bareConfig with manualLogs := listed, logs := listed } := by
  have name : validateName rawConfig.name = .ok () := by decide
  have path : prefixFromName rawConfig.name = .ok [] := by decide
  have listen : parseListen rawConfig.listen = .ok (.v4 [0, 0, 0, 0] 80) := by decide
  have apart : validateKeys rawConfig.keys = .ok () := by decide
  simp only [validate, name, path, listen, apart, valid, bind, Except.bind, pure, Except.pure]
  rfl

/-- A client whose feed serves one body under one ETag, and answers a matching validator with
304. It sends nothing to a URL with control characters below the space. -/
def feedClient (etag : Option Text) (body : Text) : HttpClient := fun request =>
  if Clean request.url then
    if etag.isSome ∧ request.ifNoneMatch = etag then .ok ⟨304, none, fun _ => .ok []⟩
    else .ok ⟨200, etag.map Utf8.encode, fun _ => .ok body⟩
  else .error "invalid uri"

theorem feedClient_checksUrls (etag : Option Text) (body : Text) :
    (feedClient etag body).ChecksUrls := by
  intro request response answered
  rw [feedClient] at answered
  split_ifs at answered with clean <;> exact clean

end MosskeysWitness.Reference
