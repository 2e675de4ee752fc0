import MosskeysWitness.Reference.Run

/-! The add-checkpoint grammar: the parser accepts the bodies a client renders and no others, and
a body determines what it was rendered from. -/

namespace MosskeysWitness

variable {crates : WitnessCrates}

section Decimal

private theorem digitChar_of_isDigit {digit : Char} (numeric : digit.isDigit = true) :
    ∃ value < 10, digit = Nat.digitChar value := by
  have bounds : 48 ≤ digit.toNat ∧ digit.toNat ≤ 57 := by
    rw [Char.isDigit, Bool.and_eq_true, decide_eq_true_eq, decide_eq_true_eq] at numeric
    exact numeric
  refine ⟨digit.toNat - 48, by omega, ?_⟩
  have table : ∀ value < 10, (Nat.digitChar value).toNat = value + 48 := by decide
  apply Char.ext
  apply UInt32.toNat_inj.mp
  have value := table (digit.toNat - 48) (by omega)
  change digit.toNat = (Nat.digitChar (digit.toNat - 48)).toNat
  omega

private theorem ofDigitChars_pos {digits : Text} (filled : digits ≠ [])
    (numeric : ∀ digit ∈ digits, digit.isDigit = true) (leading : digits.head? ≠ some '0') :
    0 < Nat.ofDigitChars 10 digits 0 := by
  cases digits with
  | nil => exact absurd rfl filled
  | cons head tail =>
      obtain ⟨value, small, rfl⟩ := digitChar_of_isDigit (numeric head (by simp))
      have positive : value ≠ 0 := by
        intro zero
        subst zero
        exact leading rfl
      rw [Nat.ofDigitChars_cons_digitChar_of_lt_ten small, Nat.ofDigitChars_eq_ofDigitChars_zero]
      have power : 0 < 10 ^ tail.length := Nat.pow_pos (by decide)
      have product : 0 < 10 ^ tail.length * (10 * 0 + value) := Nat.mul_pos power (by omega)
      omega

theorem toDigits_ofDigitChars {digits : Text} (filled : digits ≠ [])
    (numeric : ∀ digit ∈ digits, digit.isDigit = true)
    (leading : ¬ (1 < digits.length ∧ digits.head? = some '0')) :
    Nat.toDigits 10 (Nat.ofDigitChars 10 digits 0) = digits := by
  induction digits using List.reverseRecOn with
  | nil => exact absurd rfl filled
  | append_singleton front last ih =>
      obtain ⟨value, small, rfl⟩ := digitChar_of_isDigit (numeric last (by simp))
      rw [Nat.ofDigitChars_append, Nat.ofDigitChars_cons_digitChar_of_lt_ten small,
        Nat.ofDigitChars_nil]
      by_cases single : front = []
      · subst single
        rw [Nat.ofDigitChars_nil, Nat.mul_zero, Nat.zero_add, Nat.toDigits_of_lt_base small]
        rfl
      · have long : 1 < (front ++ [value.digitChar]).length := by
          have some_front : 0 < front.length := List.length_pos_of_ne_nil single
          rw [List.length_append, List.length_singleton]
          omega
        have head : front.head? ≠ some '0' := by
          intro zero
          apply leading
          exact ⟨long, by rw [List.head?_append_of_ne_nil _ single, zero]⟩
        have digits : ∀ digit ∈ front, digit.isDigit = true := fun digit member =>
          numeric digit (by simp [member])
        have positive := ofDigitChars_pos single digits head
        have rest := ih single digits (fun both => head both.2)
        rw [← Nat.toDigits_append_toDigits (by decide) positive small, rest,
          Nat.toDigits_of_lt_base small]

theorem parseOldSize_ok {line : Text} {size : UInt64} (accepted : parseOldSize line = .ok size) :
    line = ['o', 'l', 'd', ' '] ++ decimal size := by
  unfold parseOldSize at accepted
  split at accepted
  · rename_i digits
    split_ifs at accepted with empty leading small
    cases accepted
    rw [not_or] at empty
    have numeric : ∀ digit ∈ digits, digit.isDigit = true := by
      simpa [List.all_eq_true] using empty.2
    have value : (UInt64.ofNat (Nat.ofDigitChars 10 digits 0)).toNat =
        Nat.ofDigitChars 10 digits 0 := UInt64.toNat_ofNat_of_lt small
    rw [decimal, value, toDigits_ofDigitChars empty.1 numeric leading]
    rfl
  · cases accepted

end Decimal

/-- What the loop over the proof lines has consumed. -/
theorem readProof_ok (canonical : crates.base64.Canonical) {room : Nat} {rest noteText : Text}
    {proof : ProofLines room} (accepted : readProof crates room rest = .ok (proof, noteText)) :
    rest = (proof.val.flatMap fun hash => crates.base64.encode hash.bytes ++ ['\n']) ++
      '\n' :: noteText := by
  induction room generalizing rest noteText with
  | zero =>
      rw [readProof] at accepted
      split at accepted
      · cases accepted
      · rename_i line tail cut
        obtain ⟨whole, -⟩ := Strings.splitOnce_eq_some_iff.mp cut
        split_ifs at accepted with blank
        · cases accepted
          rw [whole, blank]
          rfl
        · split at accepted
          · cases accepted
          · split_ifs at accepted
  | succ room ih =>
      rw [readProof] at accepted
      split at accepted
      · cases accepted
      · rename_i line tail cut
        obtain ⟨whole, -⟩ := Strings.splitOnce_eq_some_iff.mp cut
        split_ifs at accepted with blank
        · cases accepted
          rw [whole, blank]
          rfl
        · split at accepted
          · cases accepted
          · rename_i bytes decoded
            split_ifs at accepted with sized
            dsimp only at accepted
            split at accepted
            · cases accepted
            · rename_i others text inner
              cases accepted
              have encoded : line = crates.base64.encode bytes :=
                (canonical.decode_iff line bytes).mp decoded
              rw [whole, ih inner, encoded]
              simp [ProofLines.push]

/-- A body that is rendered from the parsed size, hashes and note text, where the text is a
newline-terminated note and the note's text is the checkpoint. -/
structure Carries (crates : WitnessCrates) (body : Text) (request : ParsedRequest crates)
    (noteText : Text) : Prop where
  rendered : body = renderRequest crates request.oldSize request.proof.val noteText
  ended : noteText.getLast? = some '\n'
  parsed : crates.log.parseNote noteText = .ok request.note
  read : crates.log.parseCheckpoint (crates.log.text request.note) = .ok request.checkpoint

theorem parseRequest_carries (canonical : crates.base64.Canonical) {body : Text}
    {request : ParsedRequest crates} (accepted : parseRequest crates body = .ok request) :
    ∃ noteText, Carries crates body request noteText := by
  rw [parseRequest] at accepted
  split_ifs at accepted with bare
  split at accepted
  · cases accepted
  · rename_i oldLine rest cut
    obtain ⟨whole, -⟩ := Strings.splitOnce_eq_some_iff.mp cut
    split at accepted
    · cases accepted
    · rename_i oldSize sized
      split at accepted
      · cases accepted
      · rename_i proof noteText lines
        split_ifs at accepted with empty
        split at accepted
        · cases accepted
        · rename_i note parsed
          split at accepted
          · cases accepted
          · rename_i checkpoint read
            cases accepted
            have front := parseOldSize_ok sized
            have back := readProof_ok canonical lines
            have rendered : body = renderRequest crates oldSize proof.val noteText := by
              rw [whole, front, back]
              simp [renderRequest]
            refine ⟨noteText, rendered, ?_, parsed, read⟩
            have ends : body.getLast? = some '\n' := not_not.mp bare
            rwa [rendered, renderRequest, List.getLast?_append_of_ne_nil _ empty] at ends

theorem Carries.accepted (canonical : crates.base64.Canonical) {body noteText : Text}
    {request : ParsedRequest crates} (carries : Carries crates body request noteText) :
    parseRequest crates body = .ok request := by
  rw [carries.rendered]
  exact parseRequest_render canonical request.oldSize request.proof carries.ended carries.parsed
    carries.read

theorem renderRequest_injective (canonical : crates.base64.Canonical) {size size' : UInt64}
    {proof proof' : ProofLines maxProofLines} {noteText noteText' : Text}
    (same : renderRequest crates size proof.val noteText =
      renderRequest crates size' proof'.val noteText') :
    size = size' ∧ proof = proof' ∧ noteText = noteText' := by
  have free : ∀ size : UInt64, '\n' ∉ 'o' :: 'l' :: 'd' :: ' ' :: decimal size := by
    intro size
    simp [decimal_single size]
  have cut : ∀ (size : UInt64) (proof : List Hash) (noteText : Text),
      Strings.splitOnce '\n' (renderRequest crates size proof noteText) =
        some ('o' :: 'l' :: 'd' :: ' ' :: decimal size,
          (proof.flatMap fun hash => crates.base64.encode hash.bytes ++ ['\n']) ++
            '\n' :: noteText) := by
    intro size proof noteText
    rw [← Strings.splitOnce_append (free size)]
    simp [renderRequest]
  have parts := (cut size proof.val noteText).symm.trans ((congrArg _ same).trans (cut size' _ _))
  simp only [Option.some.injEq, Prod.mk.injEq] at parts
  have sizes : size = size' := by
    have parsed := parseOldSize_decimal size
    rw [parts.1, parseOldSize_decimal] at parsed
    exact (Except.ok.inj parsed).symm
  have lines := readProof_render canonical proof.val maxProofLines proof.property noteText
  rw [parts.2, readProof_render canonical proof'.val maxProofLines proof'.property] at lines
  simp only [Except.ok.injEq, Prod.mk.injEq] at lines
  exact ⟨sizes, lines.1.symm, lines.2.symm⟩

/-- The bodies that parse are the rendered ones, a parsed request carries what its body was
rendered from, two bodies that carry the same are the same, and every other body is malformed. -/
theorem parser_is_exact (canonical : crates.base64.Canonical) (body : Text) :
    ((∃ request, parseRequest crates body = .ok request) ↔
      ∃ (size : UInt64) (hashes : List Hash) (noteText : Text) (note : crates.log.SignedNote)
        (checkpoint : crates.log.Checkpoint),
        hashes.length ≤ maxProofLines ∧ body = renderRequest crates size hashes noteText ∧
          noteText.getLast? = some '\n' ∧ crates.log.parseNote noteText = .ok note ∧
          crates.log.parseCheckpoint (crates.log.text note) = .ok checkpoint) ∧
      (∀ request, parseRequest crates body = .ok request ↔
        ∃ noteText, Carries crates body request noteText) ∧
      (∀ other request request' noteText noteText', Carries crates body request noteText →
        Carries crates other request' noteText' →
          (body = other ↔ request.oldSize = request'.oldSize ∧ request.proof = request'.proof ∧
            noteText = noteText')) ∧
      ((∀ request, parseRequest crates body ≠ .ok request) →
        ∃ reason, parseRequest crates body = .error (.malformed reason)) := by
  refine ⟨⟨?_, ?_⟩, ?_, ?_, ?_⟩
  · intro accepted
    rcases accepted with ⟨request, accepted⟩
    obtain ⟨noteText, carries⟩ := parseRequest_carries canonical accepted
    exact ⟨request.oldSize, request.proof.val, noteText, request.note, request.checkpoint,
      request.proof.property, carries.rendered, carries.ended, carries.parsed, carries.read⟩
  · intro grammatical
    rcases grammatical with
      ⟨size, hashes, noteText, note, checkpoint, fits, rfl, ended, parsed, read⟩
    exact ⟨_, parseRequest_render canonical size ⟨hashes, fits⟩ ended parsed read⟩
  · intro request
    constructor
    · exact parseRequest_carries canonical
    · intro carried
      rcases carried with ⟨noteText, carries⟩
      exact carries.accepted canonical
  · intro other request request' noteText noteText' carries carries'
    rw [carries.rendered, carries'.rendered]
    constructor
    · exact renderRequest_injective canonical
    · intro same
      rw [same.1, same.2.1, same.2.2]
  · intro refused
    cases outcome : parseRequest crates body with
    | ok request => exact absurd outcome (refused request)
    | error reject =>
        obtain ⟨reason, rfl⟩ := parseRequest_malformed outcome
        exact ⟨reason, rfl⟩

open Reference in
theorem request_with_proof_parses : ∃ request, parseRequest witnessCrates
    (renderRequest witnessCrates 1 [seed 1, seed 2] (Note.marshal (note 2))) = .ok request :=
  (parser_is_exact base64_canonical _).1.mpr
    ⟨1, [seed 1, seed 2], Note.marshal (note 2), note 2, checkpoint 2, by decide, rfl,
      (signedCheckpoint 2).ended, (signedCheckpoint 2).parsed, (signedCheckpoint 2).read⟩

end MosskeysWitness
