import MosskeysWitness.Library.Lines
import MosskeysWitness.Library.Strings
import MosskeysWitness.Log
import MosskeysWitness.Reference.Base64

/-! Signed notes: a text that ends in a newline, an empty line, and signature lines. -/

namespace MosskeysWitness.Reference

namespace Note

/-- A key name has no spaces and no plus sign. -/
def IsName (name : Text) : Prop :=
  name ≠ [] ∧ (name.all fun scalar => !Strings.isWhitespace scalar && scalar != '+') = true

instance (name : Text) : Decidable (IsName name) := inferInstanceAs (Decidable (_ ∧ _))

structure Signature where
  name : Text
  named : IsName name
  blob : List UInt8

structure SignedNote where
  text : Text
  signatures : List Signature
  ended : text.getLast? = some '\n'
  signed : signatures ≠ []

def marshalLine (signature : Signature) : Text :=
  ['—', ' '] ++ signature.name ++ [' '] ++ Base64.encode signature.blob

def parseSignature (line : Text) : Option Signature :=
  match line with
  | '—' :: ' ' :: rest =>
      match Strings.splitOnce '\n' rest with
      | some (body, []) =>
          match Strings.splitOnce ' ' body with
          | none => none
          | some (name, encoded) =>
              if named : IsName name then
                match Base64.decode encoded with
                | .error _ => none
                | .ok blob => some ⟨name, named, blob⟩
              else none
      | _ => none
  | _ => none

def parseSignatures : List Text → Option (List Signature)
  | [] => some []
  | line :: lines =>
      match parseSignature line, parseSignatures lines with
      | some signature, some signatures => some (signature :: signatures)
      | _, _ => none

def new (text : Text) (signatures : List Signature) : Except LogError SignedNote :=
  if framed : text.getLast? = some '\n' ∧ signatures ≠ [] then
    .ok ⟨text, signatures, framed.1, framed.2⟩
  else .error (.other "malformed note")

def marshal (note : SignedNote) : Text :=
  note.text ++ ['\n'] ++ note.signatures.flatMap fun signature => marshalLine signature ++ ['\n']

/-- The signature lines are those after the last empty line. -/
def parse (source : Text) : Except LogError SignedNote :=
  let lines := (Lines.split '\n' source).reverse
  let signed := lines.takeWhile fun line => line ≠ ['\n']
  let front := (lines.dropWhile fun line => line ≠ ['\n']).drop 1
  match parseSignatures signed.reverse with
  | none => .error (.other "malformed signature line")
  | some signatures => new front.reverse.flatten signatures

theorem name_clean {signature : Signature} {scalar : Char}
    (space : Strings.isWhitespace scalar = true) : scalar ∉ signature.name := by
  intro member
  have solid := List.all_eq_true.mp signature.named.2 scalar member
  rw [space] at solid
  cases solid

theorem encode_clean {bytes : List UInt8} {scalar : Char}
    (other : scalar ∉ '=' :: Base64.alphabet) : scalar ∉ Base64.encode bytes := by
  intro member
  rcases Base64.mem_encode member with inside | pad
  · exact other (List.mem_cons_of_mem _ inside)
  · exact other (pad ▸ List.mem_cons_self)

theorem marshalLine_single (signature : Signature) : '\n' ∉ marshalLine signature := by
  have name : '\n' ∉ signature.name := name_clean (by decide)
  have blob : '\n' ∉ Base64.encode signature.blob := encode_clean (by decide)
  simp [marshalLine, name, blob]

theorem marshalLine_terminated (signature : Signature) :
    Lines.Terminated '\n' (marshalLine signature ++ ['\n']) :=
  ⟨_, marshalLine_single signature, rfl⟩

theorem parseSignature_marshalLine (signature : Signature) :
    parseSignature (marshalLine signature ++ ['\n']) = some signature := by
  have name : '\n' ∉ signature.name := name_clean (by decide)
  have blob : '\n' ∉ Base64.encode signature.blob := encode_clean (by decide)
  have line : Strings.splitOnce '\n'
      (signature.name ++ ' ' :: Base64.encode signature.blob ++ ['\n']) =
        some (signature.name ++ ' ' :: Base64.encode signature.blob, []) := by
    apply Strings.splitOnce_append
    simp [name, blob]
  have parts : Strings.splitOnce ' ' (signature.name ++ ' ' :: Base64.encode signature.blob) =
      some (signature.name, Base64.encode signature.blob) :=
    Strings.splitOnce_append (name_clean (by decide)) _
  have decoded : Base64.decode (Base64.encode signature.blob) = .ok signature.blob :=
    (base64_canonical.decode_iff _ _).mpr rfl
  have whole : marshalLine signature ++ ['\n'] = '—' :: ' ' ::
      (signature.name ++ ' ' :: Base64.encode signature.blob ++ ['\n']) := by
    simp [marshalLine]
  rw [whole]
  simp only [parseSignature, line, parts, signature.named, dif_pos, decoded]

theorem parseSignatures_marshalLine (signatures : List Signature) :
    parseSignatures (signatures.map fun signature => marshalLine signature ++ ['\n']) =
      some signatures := by
  induction signatures with
  | nil => rfl
  | cons signature signatures ih =>
      rw [List.map_cons, parseSignatures, parseSignature_marshalLine, ih]

theorem new_ok {text : Text} {signatures : List Signature} {note : SignedNote}
    (framed : new text signatures = .ok note) :
    note.text = text ∧ note.signatures = signatures := by
  rw [new] at framed
  split_ifs at framed
  cases framed
  exact ⟨rfl, rfl⟩

theorem new_parts (note : SignedNote) : new note.text note.signatures = .ok note :=
  dif_pos ⟨note.ended, note.signed⟩

theorem parse_marshal (note : SignedNote) : parse (marshal note) = .ok note := by
  let lines := note.signatures.map fun signature => marshalLine signature ++ ['\n']
  have ended : ∀ line ∈ lines, Lines.Terminated '\n' line := by
    intro line member
    obtain ⟨signature, -, rfl⟩ := List.mem_map.mp member
    exact marshalLine_terminated signature
  have marked : ∀ line ∈ lines.reverse, decide (line ≠ ['\n']) = true := by
    intro line member
    obtain ⟨signature, -, rfl⟩ := List.mem_map.mp (List.mem_reverse.mp member)
    simp [marshalLine]
  have cut : Lines.split '\n' (marshal note) =
      Lines.split '\n' note.text ++ ['\n'] :: lines := by
    have blank : Lines.Terminated '\n' ['\n'] := ⟨[], List.not_mem_nil, rfl⟩
    have alone := Lines.split_flatten_append ended []
    rw [List.append_nil, Lines.split_nil, List.append_nil] at alone
    rw [marshal, List.append_assoc, Lines.split_append_of_ends note.ended,
      Lines.split_terminated blank, List.flatMap_def, alone]
  have reversed : (Lines.split '\n' (marshal note)).reverse =
      lines.reverse ++ ['\n'] :: (Lines.split '\n' note.text).reverse := by
    rw [cut]
    simp
  simp only [parse, reversed]
  rw [List.takeWhile_append_of_pos marked, List.dropWhile_append_of_pos marked]
  simp only [List.takeWhile_cons, List.dropWhile_cons, ne_eq, not_true_eq_false, decide_false,
    Bool.false_eq_true, if_false, List.append_nil, List.drop_one, List.tail_cons,
    List.reverse_reverse]
  rw [parseSignatures_marshalLine, Lines.split_flatten]
  exact new_parts note

end Note

end MosskeysWitness.Reference
