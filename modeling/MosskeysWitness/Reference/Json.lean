import MosskeysWitness.Record
import MosskeysWitness.Reference.Base64
import MosskeysWitness.Reference.Sha256

/-! The JSON line of a record: the compact object the serializer writes, and a reader that takes
exactly such lines. -/

namespace MosskeysWitness.Reference

namespace Json

/-- The escapes with a letter of their own. -/
def shortEscape (scalar : Char) : Option Char :=
  if scalar = '"' then some '"'
  else if scalar = '\\' then some '\\'
  else if scalar.toNat = 8 then some 'b'
  else if scalar.toNat = 9 then some 't'
  else if scalar.toNat = 10 then some 'n'
  else if scalar.toNat = 12 then some 'f'
  else if scalar.toNat = 13 then some 'r'
  else none

def escapeScalar (scalar : Char) : Text :=
  match shortEscape scalar with
  | some letter => ['\\', letter]
  | none =>
      if scalar.toNat < 32 then
        ['\\', 'u', '0', '0', Nat.digitChar (scalar.toNat / 16), Nat.digitChar (scalar.toNat % 16)]
      else [scalar]

def escape (text : Text) : Text := text.flatMap escapeScalar

def unescapeLetter (letter : Char) : Char :=
  if letter = 'b' then Char.ofNat 8
  else if letter = 't' then Char.ofNat 9
  else if letter = 'n' then Char.ofNat 10
  else if letter = 'f' then Char.ofNat 12
  else if letter = 'r' then Char.ofNat 13
  else letter

def hexValue (digit : Char) : Nat :=
  if digit.isDigit then digit.toNat - 48 else digit.toNat - 87

/-- The contents of a string up to its closing quote, and what follows the quote. -/
def readString : Text → Option (Text × Text)
  | [] => none
  | '"' :: rest => some ([], rest)
  | '\\' :: 'u' :: _ :: _ :: high :: low :: rest =>
      (readString rest).map fun (text, after) =>
        (Char.ofNat (hexValue high * 16 + hexValue low) :: text, after)
  | '\\' :: letter :: rest =>
      (readString rest).map fun (text, after) => (unescapeLetter letter :: text, after)
  | scalar :: rest => (readString rest).map fun (text, after) => (scalar :: text, after)

def readNat (text : Text) : Nat × Text :=
  (Nat.ofDigitChars 10 (text.takeWhile Char.isDigit) 0, text.dropWhile Char.isDigit)

def literal (expected text : Text) : Option Text :=
  if expected.isPrefixOf text then some (text.drop expected.length) else none

def versionKey : Text := ['{', '"', 'v', '"', ':']
def originKey : Text := [',', '"', 'o', 'r', 'i', 'g', 'i', 'n', '"', ':', '"']
def sizeKey : Text := [',', '"', 's', 'i', 'z', 'e', '"', ':']
def rootKey : Text := [',', '"', 'r', 'o', 'o', 't', '"', ':', '"']
def noteKey : Text := [',', '"', 'n', 'o', 't', 'e', '"', ':', '"']
def sha256Key : Text := [',', '"', 's', 'h', 'a', '2', '5', '6', '"', ':', '"']

def write (record : Record) : Text :=
  versionKey ++ (Nat.toDigits 10 record.v.toNat ++ (originKey ++ (escape record.origin ++ ('"' ::
    (sizeKey ++ (Nat.toDigits 10 record.size.toNat ++ (rootKey ++ (escape record.root ++ ('"' ::
      (noteKey ++ (escape record.note ++ ('"' ::
        (sha256Key ++ (escape record.sha256 ++ ['"', '}']))))))))))))))

def read (text : Text) : Option (Record × Text) := do
  let text ← literal versionKey text
  let (v, text) := readNat text
  let text ← literal originKey text
  let (origin, text) ← readString text
  let text ← literal sizeKey text
  let (size, text) := readNat text
  let text ← literal rootKey text
  let (root, text) ← readString text
  let text ← literal noteKey text
  let (note, text) ← readString text
  let text ← literal sha256Key text
  let (sha256, text) ← readString text
  let text ← literal ['}'] text
  pure (⟨UInt8.ofNat v, origin, UInt64.ofNat size, root, note, sha256⟩, text)

def fromStr (text : Text) : Except String Record :=
  match read text with
  | some (record, []) => if write record = text then .ok record else .error "not canonical"
  | some _ => .error "trailing characters"
  | none => .error "syntax error"

theorem literal_append (expected rest : Text) :
    literal expected (expected ++ rest) = some rest := by
  simp [literal]

theorem readNat_toDigits (n : Nat) {rest : Text}
    (stop : ∀ scalar, rest.head? = some scalar → scalar.isDigit = false) :
    readNat (Nat.toDigits 10 n ++ rest) = (n, rest) := by
  have digits : ∀ scalar ∈ Nat.toDigits 10 n, scalar.isDigit = true := by
    intro scalar member
    exact Nat.isDigit_of_mem_toDigits (by decide) (by decide) member
  have ends : rest.takeWhile Char.isDigit = [] ∧ rest.dropWhile Char.isDigit = rest := by
    cases rest with
    | nil => simp
    | cons scalar rest => simp [stop scalar rfl]
  rw [readNat, List.takeWhile_append_of_pos digits, List.dropWhile_append_of_pos digits, ends.1,
    ends.2, List.append_nil, Nat.ofDigitChars_ten_toDigits]

private theorem scalar_eq {scalar : Char} {n : Nat} (same : scalar.toNat = n) :
    Char.ofNat n = scalar := by
  rw [← same, Char.ofNat_toNat]

theorem hexValue_digitChar {n : Nat} (small : n < 16) : hexValue (Nat.digitChar n) = n := by
  have all : ∀ n < 16, hexValue (Nat.digitChar n) = n := by decide
  exact all n small

theorem unescape_shortEscape {scalar letter : Char} (short : shortEscape scalar = some letter) :
    letter ≠ 'u' ∧ unescapeLetter letter = scalar := by
  rw [shortEscape] at short
  split_ifs at short with quote slash <;> cases short
  · subst quote
    decide
  · subst slash
    decide
  -- the five control characters are given back by their code
  all_goals
    rename_i code
    exact ⟨by decide, scalar_eq code⟩

theorem plain_of_shortEscape {scalar : Char} (plain : shortEscape scalar = none) :
    scalar ≠ '"' ∧ scalar ≠ '\\' := by
  constructor
  · intro quote
    subst quote
    cases plain
  · intro slash
    subst slash
    cases plain

theorem readString_escapeScalar (scalar : Char) (rest : Text) :
    readString (escapeScalar scalar ++ rest) =
      (readString rest).map fun (text, after) => (scalar :: text, after) := by
  rw [escapeScalar]
  cases short : shortEscape scalar with
  | some letter =>
      have other := (unescape_shortEscape short).1
      have back := (unescape_shortEscape short).2
      have step : readString ('\\' :: letter :: rest) =
          (readString rest).map fun (text, after) => (unescapeLetter letter :: text, after) := by
        rw [readString]
        intro a b high low more same
        exact absurd same other
      rw [back] at step
      exact step
  | none =>
      by_cases control : scalar.toNat < 32
      · have back : Char.ofNat (hexValue (Nat.digitChar (scalar.toNat / 16)) * 16 +
            hexValue (Nat.digitChar (scalar.toNat % 16))) = scalar := by
          rw [hexValue_digitChar (by omega), hexValue_digitChar (by omega)]
          exact scalar_eq (by omega)
        simp only [control, if_true, List.cons_append, List.nil_append, readString, back]
      · have notQuote := (plain_of_shortEscape short).1
        have notSlash := (plain_of_shortEscape short).2
        simp only [control, if_false, List.cons_append, List.nil_append]
        rw [readString]
        · exact notQuote
        · intro a b high low more same
          exact absurd same notSlash
        · intro letter more same
          exact absurd same notSlash

theorem readString_escape (text rest : Text) :
    readString (escape text ++ '"' :: rest) = some (text, rest) := by
  induction text with
  | nil => rw [escape, List.flatMap_nil, List.nil_append, readString]
  | cons scalar text ih =>
      rw [escape, List.flatMap_cons, List.append_assoc, readString_escapeScalar]
      change (readString (escape text ++ '"' :: rest)).map _ = _
      rw [ih]
      rfl

theorem read_write (record : Record) (rest : Text) :
    read (write record ++ rest) = some (record, rest) := by
  rcases record with ⟨v, origin, size, root, note, sha256⟩
  simp only [write, List.append_assoc, List.cons_append, List.nil_append]
  simp only [read, literal_append, Option.bind_eq_bind, Option.bind_some]
  rw [readNat_toDigits v.toNat (by simp [originKey])]
  simp only [literal_append, readString_escape, Option.bind_some]
  rw [readNat_toDigits size.toNat (by simp [rootKey])]
  simp only [literal_append, readString_escape, Option.bind_some]
  have closing := literal_append ['}'] rest
  rw [List.singleton_append] at closing
  simp [closing]

theorem fromStr_write (record : Record) : fromStr (write record) = .ok record := by
  have whole := read_write record []
  rw [List.append_nil] at whole
  simp [fromStr, whole]

theorem write_of_fromStr {text : Text} {record : Record} (accepted : fromStr text = .ok record) :
    write record = text := by
  rw [fromStr] at accepted
  split at accepted
  · split at accepted
    · rename_i canonical
      cases accepted
      exact canonical
    · cases accepted
  · cases accepted
  · cases accepted

theorem write_prefix_free {first second : Record} (starts : write first <+: write second) :
    write first = write second := by
  rcases starts with ⟨rest, whole⟩
  have short := read_write first rest
  have long := read_write second []
  rw [whole] at short
  rw [List.append_nil, short] at long
  have empty : rest = [] := (Prod.mk.inj (Option.some.inj long)).2
  rw [← whole, empty, List.append_nil]

theorem printable_escape {text : Text} {scalar : Char} (member : scalar ∈ escape text) :
    32 ≤ scalar.toNat := by
  obtain ⟨source, -, part⟩ := List.mem_flatMap.mp member
  have digits : ∀ n < 16, 32 ≤ (Nat.digitChar n).toNat := by decide
  rw [escapeScalar] at part
  cases short : shortEscape source with
  | some letter =>
      have letters : ∀ letter, shortEscape source = some letter → 32 ≤ letter.toNat := by
        intro letter found
        rw [shortEscape] at found
        split_ifs at found <;> cases found <;> decide
      rw [short] at part
      simp only [List.mem_cons, List.not_mem_nil, or_false] at part
      rcases part with rfl | rfl
      · decide
      · exact letters _ short
  | none =>
      rw [short] at part
      by_cases control : source.toNat < 32
      · simp only [control, if_true, List.mem_cons, List.not_mem_nil, or_false] at part
        rcases part with rfl | rfl | rfl | rfl | rfl | rfl
        · decide
        · decide
        · decide
        · decide
        · exact digits _ (by omega)
        · exact digits _ (by omega)
      · simp only [control, if_false, List.mem_singleton] at part
        subst part
        omega

theorem printable_toDigits {n : Nat} {scalar : Char} (member : scalar ∈ Nat.toDigits 10 n) :
    32 ≤ scalar.toNat := by
  have digit := Nat.isDigit_of_mem_toDigits (by decide) (by decide) member
  have low : 48 ≤ scalar.toNat := by
    simp only [Char.isDigit, Bool.and_eq_true, decide_eq_true_eq] at digit
    exact digit.1
  omega

theorem printable_write {record : Record} {scalar : Char} (member : scalar ∈ write record) :
    32 ≤ scalar.toNat := by
  have visible : ((versionKey ++ originKey ++ sizeKey ++ rootKey ++ noteKey ++ sha256Key ++
      ['"', '}']).all fun scalar => decide (32 ≤ scalar.toNat)) = true := by decide
  have keys : ∀ scalar ∈ versionKey ++ originKey ++ sizeKey ++ rootKey ++ noteKey ++ sha256Key ++
      ['"', '}'], 32 ≤ scalar.toNat := by
    intro scalar key
    exact of_decide_eq_true (List.all_eq_true.mp visible scalar key)
  simp only [write, List.mem_append, List.mem_cons, List.not_mem_nil, or_false] at member
  rcases member with key | digits | key | escaped | key | key | digits | key | escaped | key |
    key | escaped | key | key | escaped | key
  all_goals first
    | exact printable_escape escaped
    | exact printable_toDigits digits
    | exact keys scalar (by simp [key])

end Json

def json : SerdeJson Record := ⟨fun record => .ok (Json.write record), Json.fromStr⟩

theorem json_faithful : json.Faithful where
  total := by
    intro record
    exact ⟨Json.write record, rfl⟩
  round_trip := by
    intro record text written
    cases written
    exact Json.fromStr_write record
  escaped := by
    intro record text written scalar member
    cases written
    exact Json.printable_write member
  object := by
    intro record text written
    cases written
    simp [Json.write, List.getLast?_append, List.getLast?_cons]
  cut_short := by
    intro record text start written part proper
    cases written
    cases read : json.fromStr start with
    | error message => exact ⟨message, rfl⟩
    | ok other =>
        have same := Json.write_of_fromStr read
        subst same
        exact absurd (Json.write_prefix_free part) proper

def storeCrates : StoreCrates := ⟨Sha256.hash, base64, json⟩

theorem storeCrates_faithful : storeCrates.Faithful := ⟨base64_canonical, json_faithful⟩

end MosskeysWitness.Reference
