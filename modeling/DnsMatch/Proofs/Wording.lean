import Mathlib
import DnsMatch.Proofs.Text.Hex
import DnsMatch.Verdict

/-! # Texts that say all there is to say

A diagnostic text is fixed words with parts between them, and numbers and octets
are parts of any length. A part is delimited by the words behind it if it can be
told where they begin (`Text.DelimitedBy`): their first character is nowhere in
the part, or the part is one of a few texts of which, with these words, none
begins another. So the parts can be read off a text one by one, and a mismatch
or a truncation is known from its text. -/

namespace DnsMatch

namespace Text

/-! ## Telling a part from the words behind it -/

section Delimited

variable {α : Type} {shown : α → String} {behind : String} {stop : Char}

/-- Whether what is shown can be told from the words behind it, whatever follows them. -/
def DelimitedBy (behind : String) (shown : α → String) : Prop :=
  ∀ x y rest rest', shown x ++ (behind ++ rest) = shown y ++ (behind ++ rest') →
    x = y ∧ rest = rest'

/-- Where the part is known, what follows the words is known too. -/
theorem DelimitedBy.of_eq
    (h : ∀ x y rest rest', shown x ++ (behind ++ rest) = shown y ++ (behind ++ rest') → x = y) :
    DelimitedBy behind shown := by
  intro x y rest rest' htext
  obtain rfl := h x y rest rest' htext
  rw [String.append_right_inj, String.append_right_inj] at htext
  exact ⟨rfl, htext⟩

/-- What is taken up to a character is what stands before it, if it is not there already. -/
theorem takeWhile_append_cons {part : List Char} (hstop : stop ∉ part) (rest : List Char) :
    (part ++ stop :: rest).takeWhile (· ≠ stop) = part := by
  have hpart : ∀ c ∈ part, decide (c ≠ stop) := by
    intro c hmem
    simpa using ne_of_mem_of_not_mem hmem hstop
  rw [List.takeWhile_append_of_pos hpart]
  simp

/-- What is shown ends where the words behind it begin, if they begin with a character that is not
in it. -/
theorem delimitedBy_of_not_mem (hbehind : behind.toList.head? = some stop)
    (hinj : shown.Injective) (hstop : ∀ x, stop ∉ (shown x).toList) :
    DelimitedBy behind shown := by
  refine .of_eq fun x y rest rest' h => ?_
  obtain ⟨words, hwords⟩ := List.head?_eq_some_iff.1 hbehind
  have hlist := congrArg String.toList h
  simp only [String.toList_append, hwords, List.cons_append] at hlist
  have hshown : (shown x).toList = (shown y).toList := by
    rw [← takeWhile_append_cons (hstop x), hlist, takeWhile_append_cons (hstop y)]
  exact hinj (String.toList_injective hshown)

/-- Texts are told from the words behind them, if with these words none begins another. -/
theorem delimitedBy_of_prefix
    (hbegins : ∀ x y, (shown x).toList ++ behind.toList <+: (shown y).toList ++ behind.toList →
      x = y) :
    DelimitedBy behind shown := by
  refine .of_eq fun x y rest rest' h => ?_
  have hlist := congrArg String.toList h
  simp only [String.toList_append, ← List.append_assoc] at hlist
  have hx := List.prefix_append ((shown x).toList ++ behind.toList) rest.toList
  have hy := List.prefix_append ((shown y).toList ++ behind.toList) rest'.toList
  rw [hlist] at hx
  rcases List.prefix_or_prefix_of_prefix hx hy with hxy | hyx
  · exact hbegins x y hxy
  · exact (hbegins y x hyx).symm

end Delimited

/-! ## Numbers and octets -/

theorem toString_injective : (toString : Nat → String).Injective :=
  fun _ _ => Nat.repr_injective

theorem delimitedBy_toString {behind : String} {stop : Char}
    (hbehind : behind.toList.head? = some stop) (hstop : stop.isDigit = false) :
    DelimitedBy behind (toString : Nat → String) := by
  refine delimitedBy_of_not_mem hbehind toString_injective fun n hmem => ?_
  rw [Nat.toString_eq_ofList_toDigits, String.toList_ofList] at hmem
  rw [Nat.isDigit_of_mem_toDigits (by omega) (by omega) hmem] at hstop
  cases hstop

namespace Hex

/-- Octets are read back from what is shown of them. -/
theorem spaced_injective : spaced.Injective := by
  intro octets octets' h
  have hread := decode?_spaced octets
  rw [h, decode?_spaced] at hread
  exact (Option.some.inj hread).symm

theorem lineEnd_not_mem_spaced (octets : Octets) : '\n' ∉ (spaced octets).toList := by
  intro hmem
  have hdigit : ∀ {c value}, IsDigit c value → decide (c ≠ ' ') := fun h =>
    h.elim (P := fun c _ => decide (c ≠ ' ')) (by decide)
  have hkept : '\n' ∈ (spaced octets).toList.filter (· ≠ ' ') :=
    List.mem_filter.2 ⟨hmem, by decide⟩
  rw [filter_spaced (by decide) hdigit] at hkept
  obtain ⟨value, hvalue⟩ := (isSpelling_digits octets.toList).exists_isDigit hkept
  exact hvalue.not_mem_blanks (by decide)

end Hex

end Text

open Text (DelimitedBy delimitedBy_toString)

/-! ## Mismatches -/

theorem Mismatch.text_injective : text.Injective := by
  rintro ⟨⟨start, stop⟩, expected, actual⟩ ⟨⟨start', stop'⟩, expected', actual'⟩ h
  unfold text Segment.text at h
  simp only [String.append_assoc, String.append_right_inj] at h
  -- the parts come off one by one, each up to the words behind it
  obtain ⟨hstart, h⟩ := delimitedBy_toString rfl rfl _ _ _ _ h
  obtain ⟨hstop, h⟩ := delimitedBy_toString rfl rfl _ _ _ _ h
  rw [String.append_right_inj] at h
  obtain ⟨hexpected, h⟩ := Text.delimitedBy_of_not_mem rfl Text.Hex.spaced_injective
    Text.Hex.lineEnd_not_mem_spaced _ _ _ _ h
  rw [hstart, hstop, hexpected, Text.Hex.spaced_injective h]

/-! ## Truncations -/

namespace Wire

/-- The text of a label begins that of a label length, but not with the next words behind it. -/
theorem Field.delimitedBy_text : DelimitedBy " at offset " Field.text := by
  refine Text.delimitedBy_of_prefix fun field field' h => ?_
  cases field <;> cases field' <;> first | rfl | exact absurd h (by decide +kernel)

theorem Truncation.message_injective : message.Injective := by
  rintro ⟨field, offset⟩ ⟨field', offset'⟩ h
  unfold message at h
  simp only [String.append_assoc, String.append_right_inj] at h
  obtain ⟨hfield, h⟩ := Field.delimitedBy_text _ _ _ _ h
  rw [hfield, Text.toString_injective h]

end Wire

/-! ## Either text -/

/-- **No two diagnostics have the same text.** The text of a mismatch tells the bounds of its
segment and all octets of both sides, whatever numbers and however many octets they are, and that of
a truncation tells the field and the offset. -/
theorem diagnostic_texts_lose_nothing :
    (∀ mismatch mismatch' : Mismatch, mismatch.text = mismatch'.text →
      mismatch.segment = mismatch'.segment ∧ mismatch.expected = mismatch'.expected ∧
        mismatch.actual = mismatch'.actual) ∧
    ∀ truncation truncation' : Wire.Truncation, truncation.message = truncation'.message →
      truncation.field = truncation'.field ∧ truncation.offset = truncation'.offset := by
  constructor
  · intro mismatch mismatch' h
    obtain rfl := Mismatch.text_injective h
    exact ⟨rfl, rfl, rfl⟩
  · intro truncation truncation' h
    obtain rfl := Wire.Truncation.message_injective h
    exact ⟨rfl, rfl⟩

/-- One mismatch alone has a certain text without actual octets, and one truncation alone a certain
text that ends in the largest offset. -/
theorem diagnostic_texts_lose_nothing_sample :
    (∃! mismatch : Mismatch,
      mismatch.text = "octets [16, 18) differ\nexpected: 01 2c\nactual:   ") ∧
    ∃! truncation : Wire.Truncation,
      truncation.message =
        "message truncated while reading a label at offset 18446744073709551615" := by
  have htext : (⟨⟨16, 18⟩, #[0x01, 0x2c], #[]⟩ : Mismatch).text =
      "octets [16, 18) differ\nexpected: 01 2c\nactual:   " := by decide
  have hmessage : (⟨.label, Offset.max⟩ : Wire.Truncation).message =
      "message truncated while reading a label at offset 18446744073709551615" := by decide
  refine ⟨⟨_, htext, ?_⟩, ⟨_, hmessage, ?_⟩⟩
  · rintro ⟨segment, expected, actual⟩ h
    obtain ⟨rfl, rfl, rfl⟩ := diagnostic_texts_lose_nothing.1 _ _ (h.trans htext.symm)
    rfl
  · rintro ⟨field, offset⟩ h
    obtain ⟨rfl, rfl⟩ := diagnostic_texts_lose_nothing.2 _ _ (h.trans hmessage.symm)
    rfl

end DnsMatch
