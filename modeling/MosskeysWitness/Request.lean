import MosskeysWitness.Log
import MosskeysWitness.Library.Strings

/-! The body of an add-checkpoint request, and the rejections of the protocol. -/

namespace MosskeysWitness

inductive Reject where
  | malformed (reason : String)
  | unknownOrigin
  | noTrustedSignature
  | invalidTrustedSignature
  | oldSizeExceedsCheckpoint
  | sizeConflict (latest : UInt64)
  | emptySizeNonEmptyRoot
  | proofWithZeroOldSize
  | consistencyProofFailed
  | sameSizeRootMismatch
  deriving DecidableEq

def Reject.status : Reject → UInt16
  | .malformed _ | .oldSizeExceedsCheckpoint => 400
  | .noTrustedSignature | .invalidTrustedSignature => 403
  | .unknownOrigin => 404
  | .sizeConflict _ => 409
  | .emptySizeNonEmptyRoot | .proofWithZeroOldSize | .consistencyProofFailed
  | .sameSizeRootMismatch => 422

def Reject.message : Reject → String
  | .malformed reason => reason
  | .unknownOrigin => "unknown checkpoint origin"
  | .noTrustedSignature => "no signature from a trusted key for this origin"
  | .invalidTrustedSignature => "signature from a trusted key failed to verify"
  | .oldSizeExceedsCheckpoint => "old size exceeds checkpoint size"
  | .sizeConflict _ => "old size does not match the latest cosigned size"
  | .emptySizeNonEmptyRoot => "size-0 checkpoint must have the empty-tree root hash"
  | .proofWithZeroOldSize => "old size 0 requires an empty consistency proof"
  | .consistencyProofFailed => "consistency proof does not verify"
  | .sameSizeRootMismatch => "same tree size but different root hash (possible fork)"

def maxProofLines : Nat := 63

/-- The hashes of a consistency proof, at most `room` of them. -/
abbrev ProofLines (room : Nat) := {hashes : List Hash // hashes.length ≤ room}

def ProofLines.push {room : Nat} (hash : Hash) (proof : ProofLines room) : ProofLines (room + 1) :=
  ⟨hash :: proof.val, Nat.succ_le_succ proof.property⟩

structure ParsedRequest (crates : WitnessCrates) where
  oldSize : UInt64
  proof : ProofLines maxProofLines
  note : crates.log.SignedNote
  checkpoint : crates.log.Checkpoint
  wellFormed : ∃ source, crates.log.parseNote source = .ok note
  read : crates.log.parseCheckpoint (crates.log.text note) = .ok checkpoint

def parseOldSize (line : Text) : Except Reject UInt64 :=
  match line with
  | 'o' :: 'l' :: 'd' :: ' ' :: digits =>
      if digits = [] ∨ ¬ digits.all Char.isDigit then
        .error (.malformed "old size is not an ASCII decimal")
      else if 1 < digits.length ∧ digits.head? = some '0' then
        .error (.malformed "old size has a leading zero")
      else if Nat.ofDigitChars 10 digits 0 < UInt64.size then
        .ok (UInt64.ofNat (Nat.ofDigitChars 10 digits 0))
      else .error (.malformed "old size overflows u64")
  | _ => .error (.malformed "old-size line must be `old <size>`")

/-- The loop over the proof lines, up to the empty line, with room for `room` more hashes.
Returns them and what follows the empty line. -/
def readProof (crates : WitnessCrates) (room : Nat) (rest : Text) :
    Except Reject (ProofLines room × Text) :=
  match Strings.splitOnce '\n' rest with
  | none => .error (.malformed "missing empty line before the checkpoint")
  | some (line, tail) =>
      if line = [] then .ok (⟨[], Nat.zero_le room⟩, tail)
      else match crates.base64.decode line with
        | .error _ => .error (.malformed "consistency-proof line is not valid base64")
        | .ok bytes =>
            if sized : bytes.length = 32 then
              match room with
              | 0 => .error (.malformed "more than 63 consistency-proof lines")
              | room + 1 =>
                  match readProof crates room tail with
                  | .error e => .error e
                  | .ok (proof, noteText) => .ok (proof.push ⟨bytes, sized⟩, noteText)
            else .error (.malformed "consistency-proof line must decode to a 32-byte hash")

def parseRequest (crates : WitnessCrates) (body : Text) : Except Reject (ParsedRequest crates) :=
  if body.getLast? ≠ some '\n' then .error (.malformed "body is not newline-terminated")
  else match Strings.splitOnce '\n' body with
    | none => .error (.malformed "missing old-size line")
    | some (oldLine, rest) =>
        match parseOldSize oldLine with
        | .error e => .error e
        | .ok oldSize =>
            match readProof crates maxProofLines rest with
            | .error e => .error e
            | .ok (proof, noteText) =>
                if noteText = [] then .error (.malformed "missing checkpoint")
                else match parsed : crates.log.parseNote noteText with
                  | .error _ =>
                      .error (.malformed "checkpoint is not a well-formed signed note")
                  | .ok note =>
                      match read : crates.log.parseCheckpoint (crates.log.text note) with
                      | .error _ => .error (.malformed "checkpoint body is malformed")
                      | .ok checkpoint =>
                          .ok ⟨oldSize, proof, note, checkpoint, ⟨noteText, parsed⟩, read⟩

variable {crates : WitnessCrates}

theorem parseOldSize_malformed {line : Text} {reject : Reject}
    (failed : parseOldSize line = .error reject) : ∃ reason, reject = .malformed reason := by
  unfold parseOldSize at failed
  split at failed
  · split_ifs at failed <;> cases failed <;> exact ⟨_, rfl⟩
  · cases failed
    exact ⟨_, rfl⟩

theorem readProof_malformed {room : Nat} {rest : Text} {reject : Reject}
    (failed : readProof crates room rest = .error reject) :
    ∃ reason, reject = .malformed reason := by
  induction room generalizing rest with
  | zero =>
      rw [readProof] at failed
      split at failed
      · cases failed
        exact ⟨_, rfl⟩
      · split_ifs at failed
        split at failed
        · cases failed
          exact ⟨_, rfl⟩
        · split_ifs at failed <;> cases failed <;> exact ⟨_, rfl⟩
  | succ room ih =>
      rw [readProof] at failed
      split at failed
      · cases failed
        exact ⟨_, rfl⟩
      · split_ifs at failed
        split at failed
        · cases failed
          exact ⟨_, rfl⟩
        · split_ifs at failed
          · dsimp only at failed
            split at failed
            · rename_i inner
              cases failed
              exact ih inner
            · cases failed
          · cases failed
            exact ⟨_, rfl⟩

theorem parseRequest_malformed {body : Text} {reject : Reject}
    (failed : parseRequest crates body = .error reject) : ∃ reason, reject = .malformed reason := by
  rw [parseRequest] at failed
  split_ifs at failed
  · cases failed
    exact ⟨_, rfl⟩
  · split at failed
    · cases failed
      exact ⟨_, rfl⟩
    · split at failed
      · rename_i oldLine
        cases failed
        exact parseOldSize_malformed oldLine
      · split at failed
        · rename_i lines
          cases failed
          exact readProof_malformed lines
        · split_ifs at failed
          · cases failed
            exact ⟨_, rfl⟩
          · split at failed
            · cases failed
              exact ⟨_, rfl⟩
            · split at failed <;> cases failed
              exact ⟨_, rfl⟩

section Render

/-- The body of a request, as a log's client writes it. -/
def renderRequest (crates : WitnessCrates) (oldSize : UInt64) (proof : List Hash)
    (noteText : Text) : Text :=
  ['o', 'l', 'd', ' '] ++ decimal oldSize ++ ['\n'] ++
    (proof.flatMap fun hash => crates.base64.encode hash.bytes ++ ['\n']) ++ ['\n'] ++ noteText

theorem decimal_ne_nil (size : UInt64) : decimal size ≠ [] := Nat.toDigits_ne_nil

theorem toDigits_leading (n : Nat) (positive : 0 < n) : (Nat.toDigits 10 n).head? ≠ some '0' := by
  induction n using Nat.strongRecOn with
  | ind n ih =>
      by_cases small : n < 10
      · have digits : ∀ n < 10, 0 < n → [n.digitChar].head? ≠ some '0' := by decide
        rw [Nat.toDigits_of_lt_base small]
        exact digits n small positive
      · have front := ih (n / 10) (by omega) (by omega)
        rw [Nat.toDigits_of_base_le (by decide) (by omega),
          List.head?_append_of_ne_nil _ Nat.toDigits_ne_nil]
        exact front

theorem decimal_leading {size : UInt64} (long : 1 < (decimal size).length) :
    (decimal size).head? ≠ some '0' := by
  apply toDigits_leading
  by_contra zero
  have none : size.toNat = 0 := by omega
  rw [decimal, none] at long
  exact absurd long (by decide)

theorem parseOldSize_decimal (size : UInt64) :
    parseOldSize ('o' :: 'l' :: 'd' :: ' ' :: decimal size) = .ok size := by
  have all : (decimal size).all Char.isDigit = true := by
    rw [List.all_eq_true]
    intro digit member
    exact decimal_digits member
  have value : Nat.ofDigitChars 10 (decimal size) 0 = size.toNat := Nat.ofDigitChars_ten_toDigits
  have small := size.toNat_lt_size
  have leading : ¬ (1 < (decimal size).length ∧ (decimal size).head? = some '0') := by
    intro both
    exact decimal_leading both.1 both.2
  simp [parseOldSize, decimal_ne_nil, all, leading, value, small]

theorem readProof_render (canonical : crates.base64.Canonical) (proof : List Hash) (room : Nat)
    (fits : proof.length ≤ room) (noteText : Text) :
    readProof crates room
        ((proof.flatMap fun hash => crates.base64.encode hash.bytes ++ ['\n']) ++
          '\n' :: noteText) =
      .ok (⟨proof, fits⟩, noteText) := by
  induction proof generalizing room with
  | nil =>
      have blank : Strings.splitOnce '\n' ('\n' :: noteText) = some ([], noteText) :=
        Strings.splitOnce_append (List.not_mem_nil) noteText
      rw [readProof, List.flatMap_nil, List.nil_append, blank]
      simp
  | cons hash proof ih =>
      cases room with
      | zero => exact absurd fits (by simp)
      | succ room =>
          have free := canonical.encode_single hash.bytes
          have filled : crates.base64.encode hash.bytes ≠ [] := by
            apply canonical.encode_ne_nil
            intro empty
            have sized := hash.length_eq
            rw [empty] at sized
            exact absurd sized (by decide)
          have decoded : crates.base64.decode (crates.base64.encode hash.bytes) =
              .ok hash.bytes := (canonical.decode_iff _ _).mpr rfl
          have others := ih room (Nat.le_of_succ_le_succ fits)
          rw [readProof, List.flatMap_cons, List.append_assoc, List.append_assoc,
            List.singleton_append, Strings.splitOnce_append free]
          simp only [if_neg filled, decoded, hash.length_eq, dif_pos, others, ProofLines.push]

theorem parseRequest_render (canonical : crates.base64.Canonical) (oldSize : UInt64)
    (proof : ProofLines maxProofLines) {noteText : Text} {note : crates.log.SignedNote}
    {checkpoint : crates.log.Checkpoint} (ended : noteText.getLast? = some '\n')
    (parsed : crates.log.parseNote noteText = .ok note)
    (read : crates.log.parseCheckpoint (crates.log.text note) = .ok checkpoint) :
    parseRequest crates (renderRequest crates oldSize proof.val noteText) =
      .ok ⟨oldSize, proof, note, checkpoint, ⟨noteText, parsed⟩, read⟩ := by
  have filled : noteText ≠ [] := by
    intro empty
    rw [empty] at ended
    cases ended
  have last : (renderRequest crates oldSize proof.val noteText).getLast? = some '\n' := by
    rw [renderRequest, List.getLast?_append_of_ne_nil _ filled, ended]
  have free : '\n' ∉ 'o' :: 'l' :: 'd' :: ' ' :: decimal oldSize := by
    simp [decimal_single oldSize]
  have cut : Strings.splitOnce '\n' (renderRequest crates oldSize proof.val noteText) =
      some ('o' :: 'l' :: 'd' :: ' ' :: decimal oldSize,
        (proof.val.flatMap fun hash => crates.base64.encode hash.bytes ++ ['\n']) ++
          '\n' :: noteText) := by
    rw [← Strings.splitOnce_append free]
    simp [renderRequest]
  have lines := readProof_render canonical proof.val maxProofLines proof.property noteText
  rw [parseRequest]
  simp only [last, ne_eq, not_true_eq_false, if_false, cut, parseOldSize_decimal, lines, filled]
  split
  · rename_i failed
    rw [parsed] at failed
    cases failed
  · rename_i other found
    have same := parsed.symm.trans found
    cases same
    split
    · rename_i failed
      rw [read] at failed
      cases failed
    · rename_i other found
      have same := read.symm.trans found
      cases same
      rfl

end Render

end MosskeysWitness
