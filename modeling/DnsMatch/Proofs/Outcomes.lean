import DnsMatch.Proofs.Strictness
import DnsMatch.Report

/-! # What a pair comes to

A pair has two files, and each gives a message or does not (`MessageAt`,
`NoMessageAt`). A pair fails if one of them does not, or if its expected message
cannot be walked in the mode that leaves out TTLs; of these the first that holds
is reported (`Pair.FailsWith`). What the actual message holds never makes a pair
fail, and in the exact mode neither does what the expected one holds. -/

namespace DnsMatch

open Wire (AgreeOutside walk)

variable {host : Host} {path : Files.Path} {format : Format} {message : Octets}
  {failure : Failure}

/-! ## Files -/

inductive MessageAt (host : Host) (path : Files.Path) : Format → Octets → Prop
  | raw {message : Octets} (there : host.read path = .ok message) :
      MessageAt host path .raw message
  | hex {contents message : Octets} {text : String} (there : host.read path = .ok contents)
      (utf8 : String.fromUTF8? ⟨contents⟩ = some text)
      (digits : Text.Hex.decode? text = some message) : MessageAt host path .hex message
  | base64 {contents message : Octets} (there : host.read path = .ok contents)
      (digits : Text.Base64.decode? contents = some message) :
      MessageAt host path .base64 message

/-- Whether the file at a path cannot be read, or gives no message in a format, and the failure
says which. -/
inductive NoMessageAt (host : Host) (path : Files.Path) : Format → Failure → Prop
  | unread {format : Format} {reason : String} (missing : host.read path = .error reason) :
      NoMessageAt host path format [.unread path, .foreign reason]
  | notUtf8 {contents : Octets} (there : host.read path = .ok contents)
      (utf8 : String.fromUTF8? ⟨contents⟩ = none) :
      NoMessageAt host path .hex
        [.undecoded path, .notUtf8, .foreign (host.notUtf8 contents)]
  | notHex {contents : Octets} {text : String} (there : host.read path = .ok contents)
      (utf8 : String.fromUTF8? ⟨contents⟩ = some text)
      (digits : Text.Hex.decode? text = none) :
      NoMessageAt host path .hex [.undecoded path, .notHex]
  | notBase64 {contents : Octets} (there : host.read path = .ok contents)
      (digits : Text.Base64.decode? contents = none) :
      NoMessageAt host path .base64
        [.undecoded path, .notBase64, .foreign (host.notBase64 contents)]

theorem loadMessage_of_messageAt (h : MessageAt host path format message) :
    loadMessage host path format = .ok message := by
  cases h with
  | raw there =>
    simp only [loadMessage, there, Format.decode]
    rfl
  | hex there utf8 digits =>
    simp only [loadMessage, there, Format.decode, utf8, digits]
    rfl
  | base64 there digits =>
    simp only [loadMessage, there, Format.decode, digits]
    rfl

theorem loadMessage_of_noMessageAt (h : NoMessageAt host path format failure) :
    loadMessage host path format = .error failure := by
  cases h with
  | unread missing => simp only [loadMessage, missing]
  | notUtf8 there utf8 =>
    simp only [loadMessage, there, Format.decode, utf8]
    rfl
  | notHex there utf8 digits =>
    simp only [loadMessage, there, Format.decode, utf8, digits]
    rfl
  | notBase64 there digits =>
    simp only [loadMessage, there, Format.decode, digits]
    rfl

/-- A file gives a message or does not. -/
theorem messageAt_or_noMessageAt (host : Host) (path : Files.Path) (format : Format) :
    (∃ message, MessageAt host path format message) ∨
      ∃ failure, NoMessageAt host path format failure := by
  cases hread : host.read path with
  | error reason => exact .inr ⟨_, .unread hread⟩
  | ok contents =>
    cases format with
    | raw => exact .inl ⟨_, .raw hread⟩
    | hex =>
      cases hutf8 : String.fromUTF8? ⟨contents⟩ with
      | none => exact .inr ⟨_, .notUtf8 hread hutf8⟩
      | some text =>
        cases hdigits : Text.Hex.decode? text with
        | none => exact .inr ⟨_, .notHex hread hutf8 hdigits⟩
        | some message => exact .inl ⟨_, .hex hread hutf8 hdigits⟩
    | base64 =>
      cases hdigits : Text.Base64.decode? contents with
      | none => exact .inr ⟨_, .notBase64 hread hdigits⟩
      | some message => exact .inl ⟨_, .base64 hread hdigits⟩

theorem loadMessage_eq_ok_iff :
    loadMessage host path format = .ok message ↔ MessageAt host path format message := by
  refine ⟨fun h => ?_, loadMessage_of_messageAt⟩
  rcases messageAt_or_noMessageAt host path format with ⟨message', hmessage⟩ | ⟨failure, hfailure⟩
  · rw [loadMessage_of_messageAt hmessage, Except.ok.injEq] at h
    exact h ▸ hmessage
  · rw [loadMessage_of_noMessageAt hfailure] at h
    cases h

theorem loadMessage_eq_error_iff :
    loadMessage host path format = .error failure ↔ NoMessageAt host path format failure := by
  refine ⟨fun h => ?_, loadMessage_of_noMessageAt⟩
  rcases messageAt_or_noMessageAt host path format with ⟨message, hmessage⟩ | ⟨failure', hfailure⟩
  · rw [loadMessage_of_messageAt hmessage] at h
    cases h
  · rw [loadMessage_of_noMessageAt hfailure, Except.error.injEq] at h
    exact h ▸ hfailure

theorem MessageAt.not_noMessageAt (h : MessageAt host path format message) :
    ¬NoMessageAt host path format failure := by
  intro hfailure
  rw [← loadMessage_eq_error_iff, loadMessage_eq_ok_iff.2 h] at hfailure
  cases hfailure

/-! ## Outcomes -/

def Outcome.ofVerdict : Verdict → Outcome
  | .equivalent => .equivalent
  | .different _ => .mismatched

theorem Outcome.ofVerdict_eq_equivalent_iff {verdict : Verdict} :
    ofVerdict verdict = .equivalent ↔ verdict = .equivalent := by
  cases verdict <;> simp [ofVerdict]

namespace Pair

variable {config : Config} {pair : Pair} {expected actual : Octets}

/-- What makes a pair fail, and how the failure is told. Each cause counts only if those before it
do not hold. -/
inductive FailsWith (host : Host) (config : Config) (pair : Pair) : Failure → Prop
  | expected {failure : Failure}
      (expectedMissing : NoMessageAt host pair.expected (pair.format config) failure) :
      FailsWith host config pair failure
  | actual {expected : Octets} {failure : Failure}
      (expectedThere : MessageAt host pair.expected (pair.format config) expected)
      (actualMissing : NoMessageAt host pair.actual (pair.format config) failure) :
      FailsWith host config pair failure
  | malformed {expected actual : Octets} {truncation : Wire.Truncation}
      (expectedThere : MessageAt host pair.expected (pair.format config) expected)
      (actualThere : MessageAt host pair.actual (pair.format config) actual)
      (mode : pair.mode config = .ignoreTtls) (truncated : walk expected = .error truncation) :
      FailsWith host config pair [.malformed pair.expected, .truncated truncation]

/-! ### With both messages -/

section There

variable (hexpected : MessageAt host pair.expected (pair.format config) expected)
  (hactual : MessageAt host pair.actual (pair.format config) actual)

include hexpected hactual

theorem result_compare_of_messageAt :
    (pair.compare host config).result =
      (((pair.mode config).validate expected actual).result.mapError pair.malformed).map
        Outcome.ofVerdict := by
  simp only [compare, Logged.result_bind, Logged.result_write, Logged.result_lift,
    Logged.result_mapError, loadMessage_of_messageAt hexpected, loadMessage_of_messageAt hactual,
    ok_bind]
  cases ((pair.mode config).validate expected actual).result with
  | error truncation => rfl
  | ok verdict => cases verdict <;> rfl

theorem exists_outcome_exact (hmode : pair.mode config = .exact) :
    ∃ outcome, (pair.compare host config).result = .ok outcome ∧
      (outcome = .equivalent ↔ expected = actual) := by
  refine ⟨Outcome.ofVerdict (Verdict.exact expected actual), ?_, ?_⟩
  · rw [result_compare_of_messageAt hexpected hactual, hmode, Mode.result_validate_exact]
    rfl
  · rw [Outcome.ofVerdict_eq_equivalent_iff, Verdict.exact_eq_equivalent_iff]

theorem exists_outcome_ignoreTtls (hmode : pair.mode config = .ignoreTtls)
    {ttlOffsets : List Nat} (hwalk : walk expected = .ok ttlOffsets) :
    ∃ outcome, (pair.compare host config).result = .ok outcome ∧
      (outcome = .equivalent ↔
        actual.size = expected.size ∧ AgreeOutside ttlOffsets expected actual) := by
  have hvalidate : (Mode.ignoreTtls.validate expected actual).result =
      .ok (Verdict.compare expected actual ttlOffsets) := by
    rw [Mode.result_validate_ignoreTtls, hwalk]
    rfl
  refine ⟨Outcome.ofVerdict (Verdict.compare expected actual ttlOffsets), ?_, ?_⟩
  · rw [result_compare_of_messageAt hexpected hactual, hmode, hvalidate]
    rfl
  · have hequivalent := @Mode.validate_eq_equivalent_iff expected actual
    rw [hvalidate, hwalk, Except.ok.injEq] at hequivalent
    rw [Outcome.ofVerdict_eq_equivalent_iff, hequivalent]
    simp

theorem result_compare_truncated (hmode : pair.mode config = .ignoreTtls)
    {truncation : Wire.Truncation} (hwalk : walk expected = .error truncation) :
    (pair.compare host config).result = .error (pair.malformed truncation) := by
  rw [result_compare_of_messageAt hexpected hactual, hmode, Mode.result_validate_ignoreTtls, hwalk]
  rfl

/-- With both messages there, a pair fails only if its expected message cannot be walked. -/
theorem compare_eq_error_of_messageAt :
    (pair.compare host config).result = .error failure ↔
      pair.mode config = .ignoreTtls ∧
        ∃ truncation, walk expected = .error truncation ∧ failure = pair.malformed truncation := by
  constructor
  · intro h
    cases hmode : pair.mode config with
    | exact =>
      obtain ⟨outcome, hok, _⟩ := exists_outcome_exact hexpected hactual hmode
      rw [hok] at h
      cases h
    | ignoreTtls =>
      cases hwalk : walk expected with
      | error truncation =>
        rw [result_compare_truncated hexpected hactual hmode hwalk] at h
        exact ⟨rfl, truncation, rfl, (Except.error.inj h).symm⟩
      | ok ttlOffsets =>
        obtain ⟨outcome, hok, _⟩ := exists_outcome_ignoreTtls hexpected hactual hmode hwalk
        rw [hok] at h
        cases h
  · rintro ⟨hmode, truncation, hwalk, rfl⟩
    exact result_compare_truncated hexpected hactual hmode hwalk

end There

/-! ### Without one of the messages -/

theorem result_compare_of_no_expected
    (h : NoMessageAt host pair.expected (pair.format config) failure) :
    (pair.compare host config).result = .error failure := by
  simp only [compare, Logged.result_bind, Logged.result_write, Logged.result_lift,
    loadMessage_of_noMessageAt h, ok_bind, error_bind]

theorem result_compare_of_no_actual
    (hexpected : MessageAt host pair.expected (pair.format config) expected)
    (h : NoMessageAt host pair.actual (pair.format config) failure) :
    (pair.compare host config).result = .error failure := by
  simp only [compare, Logged.result_bind, Logged.result_write, Logged.result_lift,
    loadMessage_of_messageAt hexpected, loadMessage_of_noMessageAt h, ok_bind,
    error_bind]

/-! ### All cases -/

theorem compare_eq_error_iff :
    (pair.compare host config).result = .error failure ↔ pair.FailsWith host config failure := by
  constructor
  · intro h
    rcases messageAt_or_noMessageAt host pair.expected (pair.format config) with
      ⟨expected, hexpected⟩ | ⟨failure', hmissing⟩
    · rcases messageAt_or_noMessageAt host pair.actual (pair.format config) with
        ⟨actual, hactual⟩ | ⟨failure', hmissing⟩
      · obtain ⟨hmode, truncation, hwalk, rfl⟩ :=
          (compare_eq_error_of_messageAt hexpected hactual).1 h
        exact .malformed hexpected hactual hmode hwalk
      · rw [result_compare_of_no_actual hexpected hmissing, Except.error.injEq] at h
        exact h ▸ .actual hexpected hmissing
    · rw [result_compare_of_no_expected hmissing, Except.error.injEq] at h
      exact h ▸ .expected hmissing
  · intro h
    cases h with
    | expected expectedMissing => exact result_compare_of_no_expected expectedMissing
    | actual expectedThere actualMissing =>
      exact result_compare_of_no_actual expectedThere actualMissing
    | malformed expectedThere actualThere mode truncated =>
      exact result_compare_truncated expectedThere actualThere mode truncated

/-- **The outcomes of a pair are kept apart.** A pair fails exactly if its expected file gives no
message, or its actual file does not, or its expected message cannot be walked although the mode
asks for it, and it is told of the first of these. Otherwise it is equivalent exactly if the
messages are the same octets, or in the other mode if they are of one length and agree outside the
TTLs. So a pair with both messages never fails but for an expected one that cannot be walked. -/
theorem compare_keeps_outcomes_apart (host : Host) (config : Config) (pair : Pair) :
    (∀ failure, (pair.compare host config).result = .error failure ↔
      pair.FailsWith host config failure) ∧
    ((∃ failure, (pair.compare host config).result = .error failure) ↔
      (∃ failure, NoMessageAt host pair.expected (pair.format config) failure) ∨
      (∃ failure, NoMessageAt host pair.actual (pair.format config) failure) ∨
      pair.mode config = .ignoreTtls ∧ ∃ expected truncation,
        MessageAt host pair.expected (pair.format config) expected ∧
          walk expected = .error truncation) ∧
    ∀ expected actual, MessageAt host pair.expected (pair.format config) expected →
      MessageAt host pair.actual (pair.format config) actual →
      (pair.mode config = .exact → ∃ outcome, (pair.compare host config).result = .ok outcome ∧
        (outcome = .equivalent ↔ expected = actual)) ∧
      (pair.mode config = .ignoreTtls → ∀ ttlOffsets, walk expected = .ok ttlOffsets →
        ∃ outcome, (pair.compare host config).result = .ok outcome ∧
          (outcome = .equivalent ↔
            actual.size = expected.size ∧ AgreeOutside ttlOffsets expected actual)) ∧
      (∀ failure, (pair.compare host config).result = .error failure →
        pair.mode config = .ignoreTtls ∧ ∃ truncation, walk expected = .error truncation ∧
          failure = [.malformed pair.expected, .truncated truncation]) := by
  refine ⟨fun failure => compare_eq_error_iff, ?_, ?_⟩
  · simp only [compare_eq_error_iff]
    constructor
    · rintro ⟨failure, h⟩
      cases h with
      | expected expectedMissing => exact .inl ⟨failure, expectedMissing⟩
      | actual expectedThere actualMissing => exact .inr (.inl ⟨failure, actualMissing⟩)
      | malformed expectedThere actualThere mode truncated =>
        exact .inr (.inr ⟨mode, _, _, expectedThere, truncated⟩)
    · rcases messageAt_or_noMessageAt host pair.expected (pair.format config) with
        ⟨expected, hexpected⟩ | ⟨failure, hmissing⟩
      · rcases messageAt_or_noMessageAt host pair.actual (pair.format config) with
          ⟨actual, hactual⟩ | ⟨failure, hmissing⟩
        · rintro (⟨failure, hmissing⟩ | ⟨failure, hmissing⟩ | ⟨hmode, _, truncation, hthere, hwalk⟩)
          · exact absurd hmissing hexpected.not_noMessageAt
          · exact absurd hmissing hactual.not_noMessageAt
          · exact ⟨_, .malformed hthere hactual hmode hwalk⟩
        · exact fun _ => ⟨failure, .actual hexpected hmissing⟩
      · exact fun _ => ⟨failure, .expected hmissing⟩
  · intro expected actual hexpected hactual
    exact ⟨exists_outcome_exact hexpected hactual,
      fun hmode _ => exists_outcome_ignoreTtls hexpected hactual hmode,
      fun _ => (compare_eq_error_of_messageAt hexpected hactual).1⟩

/-- A file with a whole message, and one that is empty. -/
def wholeAndEmpty : Host :=
  .ofFiles fun
    | ⟨"whole"⟩ => some Wire.Message.sample.encode
    | ⟨"empty"⟩ => some #[]
    | _ => none

def plain (expected actual : String) : Pair :=
  ⟨none, ⟨expected⟩, ⟨actual⟩, none, none⟩

/-- The empty file as the actual message is a mismatch, and as the expected one a failure; in the
exact mode it is equivalent to itself. A file that is not there is told of before one that is
malformed. -/
theorem compare_keeps_outcomes_apart_sample :
    ((plain "whole" "empty").compare wholeAndEmpty ⟨.ignoreTtls, .raw, []⟩).result =
      .ok .mismatched ∧
    ((plain "empty" "whole").compare wholeAndEmpty ⟨.ignoreTtls, .raw, []⟩).result =
      .error [.malformed ⟨"empty"⟩, .truncated ⟨.header, 0⟩] ∧
    ((plain "empty" "empty").compare wholeAndEmpty ⟨.exact, .raw, []⟩).result =
      .ok .equivalent ∧
    ((plain "empty" "none").compare wholeAndEmpty ⟨.ignoreTtls, .raw, []⟩).result =
      .error [.unread ⟨"none"⟩, .foreign "No such file or directory (os error 2)"] := by
  have hwhole : MessageAt wholeAndEmpty ⟨"whole"⟩ .raw Wire.Message.sample.encode := .raw rfl
  have hempty : MessageAt wholeAndEmpty ⟨"empty"⟩ .raw #[] := .raw rfl
  refine ⟨?_, ?_, ?_, ?_⟩
  · obtain ⟨outcome, hresult, houtcome⟩ :=
      ((compare_keeps_outcomes_apart wholeAndEmpty ⟨.ignoreTtls, .raw, []⟩
        (plain "whole" "empty")).2.2 _ _ hwhole hempty).2.1 rfl _
          Wire.walk_sample
    cases outcome with
    | equivalent => exact absurd (houtcome.1 rfl).1 (by decide)
    | mismatched => exact hresult
  · exact ((compare_keeps_outcomes_apart wholeAndEmpty ⟨.ignoreTtls, .raw, []⟩
      (plain "empty" "whole")).1 _).2
        (.malformed hempty hwhole rfl rfl)
  · obtain ⟨outcome, hresult, houtcome⟩ :=
      ((compare_keeps_outcomes_apart wholeAndEmpty ⟨.exact, .raw, []⟩
        (plain "empty" "empty")).2.2 _ _ hempty hempty).1 rfl
    rw [hresult, houtcome.2 rfl]
  · exact ((compare_keeps_outcomes_apart wholeAndEmpty ⟨.ignoreTtls, .raw, []⟩
      (plain "empty" "none")).1 _).2 (.actual hempty (.unread rfl))

end Pair

end DnsMatch
