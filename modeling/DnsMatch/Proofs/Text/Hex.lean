import DnsMatch.Proofs.Text.Blank
import DnsMatch.Text.Hex

/-! # Hexadecimal text and the octets it spells

A text spells octets if without its white space it is pairs of digits, of either
case, whose values make up the octets (`IsSpelling`). Reading accepts exactly
these texts (`decode?_eq_some_iff`), so that what is shown is read back, and
white space and case have no say in what is read. -/

namespace DnsMatch.Text.Hex

variable {octets out : Octets} {text : List Char} {spelt : List UInt8} {c : Char} {value : Nat}

/-! ## Digits -/

def lowerDigits : List Char :=
  ['0', '1', '2', '3', '4', '5', '6', '7', '8', '9', 'a', 'b', 'c', 'd', 'e', 'f']

def upperDigits : List Char :=
  ['0', '1', '2', '3', '4', '5', '6', '7', '8', '9', 'A', 'B', 'C', 'D', 'E', 'F']

/-- Whether a character is the digit for a value, in either case. -/
def IsDigit (c : Char) (value : Nat) : Prop :=
  lowerDigits[value]? = some c ∨ upperDigits[value]? = some c

instance (c : Char) (value : Nat) : Decidable (IsDigit c value) :=
  inferInstanceAs (Decidable (_ ∨ _))

theorem IsDigit.lt (h : IsDigit c value) : value < 16 := by
  rcases h with hlower | hupper
  · exact (List.getElem?_eq_some_iff.1 hlower).1
  · exact (List.getElem?_eq_some_iff.1 hupper).1

/-- What holds of the digits for each value holds of every digit. -/
theorem IsDigit.elim {P : Char → Nat → Prop}
    (hall : ∀ value < 16, P (lowerDigits.getD value ' ') value ∧
      P (upperDigits.getD value ' ') value)
    (h : IsDigit c value) : P c value := by
  obtain ⟨hlower, hupper⟩ := hall value h.lt
  rw [List.getD_eq_getElem?_getD] at hlower hupper
  rcases h with h | h
  · rwa [h] at hlower
  · rwa [h] at hupper

theorem IsDigit.value?_eq (h : IsDigit c value) : value? c = some value :=
  h.elim (P := fun c value => value? c = some value) (by decide)

theorem IsDigit.toLower_eq (h : IsDigit c value) : c.toLower = digit value :=
  h.elim (P := fun c value => c.toLower = digit value) (by decide)

theorem isDigit_digit : ∀ value < 16, IsDigit (digit value) value := by
  decide

theorem value?_of_le (h : 128 ≤ c.toNat) : value? c = none := by
  have hrange : ∀ {low high : Char}, high.toNat < 128 → ¬(low ≤ c ∧ c ≤ high) := by
    intro low high hhigh hin
    have hle : c.toNat ≤ high.toNat := UInt32.le_iff_toNat_le.1 hin.2
    omega
  unfold value?
  rw [if_neg (hrange (by decide)), if_neg (hrange (by decide)), if_neg (hrange (by decide))]

theorem value?_eq_some_iff : value? c = some value ↔ IsDigit c value := by
  refine ⟨fun h => ?_, IsDigit.value?_eq⟩
  by_cases hc : c.toNat < 128
  · exact forall_ascii (P := fun c => ∀ value ∈ value? c, IsDigit c value) (by decide) hc value h
  · rw [value?_of_le (Nat.le_of_not_lt hc)] at h
    cases h

theorem value?_toLower (c : Char) : value? c.toLower = value? c := by
  by_cases hc : c.toNat < 128
  · exact forall_ascii (P := fun c => value? c.toLower = value? c) (by decide) hc
  · rw [toLower_of_le (Nat.le_of_not_lt hc)]

theorem IsDigit.not_mem_blanks (h : IsDigit c value) : c ∉ blanks :=
  h.elim (P := fun c _ => c ∉ blanks) (by decide)

theorem IsDigit.lt_128 (h : IsDigit c value) : c.toNat < 128 :=
  h.elim (P := fun c _ => c.toNat < 128) (by decide)

/-! ## Pairs of digits -/

/-- Whether a text is the digits of octets, two for each octet and the high one first. -/
inductive IsSpelling : List Char → List UInt8 → Prop
  | nil : IsSpelling [] []
  | cons {high low : Char} {highValue lowValue : Nat} {octet : UInt8} {text : List Char}
      {octets : List UInt8} (highDigit : IsDigit high highValue) (lowDigit : IsDigit low lowValue)
      (value : octet.toNat = 16 * highValue + lowValue) (rest : IsSpelling text octets) :
      IsSpelling (high :: low :: text) (octet :: octets)

namespace IsSpelling

theorem length_eq (h : IsSpelling text spelt) : text.length = 2 * spelt.length := by
  induction h with
  | nil => rfl
  | cons highDigit lowDigit value rest ih => simp only [List.length_cons]; omega

theorem exists_isDigit (h : IsSpelling text spelt) {c : Char} (hmem : c ∈ text) :
    ∃ value, IsDigit c value := by
  induction h with
  | nil => cases hmem
  | cons highDigit lowDigit value rest ih =>
    rcases List.mem_cons.1 hmem with rfl | hmem
    · exact ⟨_, highDigit⟩
    · rcases List.mem_cons.1 hmem with rfl | hmem
      · exact ⟨_, lowDigit⟩
      · exact ih hmem

/-- In lower case, what spells octets is their digits as they are shown. -/
theorem map_toLower_eq (h : IsSpelling text spelt) :
    text.map Char.toLower = spelt.flatMap digits := by
  induction h with
  | nil => rfl
  | @cons high low highValue lowValue octet text octets highDigit lowDigit value rest ih =>
    have hlt := lowDigit.lt
    have hhigh : octet.toNat / 16 = highValue := by omega
    have hlow : octet.toNat % 16 = lowValue := by omega
    rw [List.map_cons, List.map_cons, List.flatMap_cons, ih, highDigit.toLower_eq,
      lowDigit.toLower_eq, digits, hhigh, hlow]
    rfl

end IsSpelling

theorem exists_isSpelling : ∀ {text : List Char}, (∀ c ∈ text, ∃ value, IsDigit c value) →
    text.length % 2 = 0 → ∃ spelt, IsSpelling text spelt
  | [], _, _ => ⟨[], .nil⟩
  | [_], _, heven => absurd heven Nat.one_ne_zero
  | high :: low :: text, hdigits, heven => by
    rw [List.forall_mem_cons, List.forall_mem_cons] at hdigits
    obtain ⟨⟨highValue, hhigh⟩, ⟨lowValue, hlow⟩, hrest⟩ := hdigits
    rw [List.length_cons, List.length_cons] at heven
    obtain ⟨spelt, hspelt⟩ := exists_isSpelling hrest (by omega)
    have := hhigh.lt
    have := hlow.lt
    exact ⟨UInt8.ofNat (16 * highValue + lowValue) :: spelt,
      .cons hhigh hlow (UInt8.toNat_ofNat_of_lt' (by simp only [UInt8.size]; omega)) hspelt⟩

theorem isSpelling_digits (spelt : List UInt8) : IsSpelling (spelt.flatMap digits) spelt := by
  induction spelt with
  | nil => exact .nil
  | cons octet spelt ih =>
    have hlt := octet.toNat_lt
    exact .cons (isDigit_digit _ (by omega)) (isDigit_digit _ (by omega)) (by omega) ih

/-! ## Reading -/

theorem exists_of_decodePairs (h : decodePairs octets text = some out) :
    ∃ spelt : List UInt8, out = octets ++ spelt ∧ IsSpelling text spelt := by
  fun_induction decodePairs octets text with
  | case1 octets => exact ⟨[], by simpa using h.symm, .nil⟩
  | case2 octets c => cases h
  | case3 octets high low rest highValue lowValue hlow hhigh ih =>
    obtain ⟨spelt, hout, hspelt⟩ := ih h
    rw [value?_eq_some_iff] at hhigh hlow
    have := hhigh.lt
    have := hlow.lt
    refine ⟨UInt8.ofNat (highValue * 16 + lowValue) :: spelt, by simpa using hout,
      .cons hhigh hlow ?_ hspelt⟩
    rw [UInt8.toNat_ofNat_of_lt' (by simp only [UInt8.size]; omega)]
    omega
  | case4 octets high low rest hnone => cases h

theorem decodePairs_of_isSpelling (h : IsSpelling text spelt) (octets : Octets) :
    decodePairs octets text = some (octets ++ spelt) := by
  induction h generalizing octets with
  | nil => simp [decodePairs]
  | @cons high low highValue lowValue octet text spelt highDigit lowDigit value rest ih =>
    have hoctet : UInt8.ofNat (highValue * 16 + lowValue) = octet := by
      rw [Nat.mul_comm, ← value, UInt8.ofNat_toNat]
    simp only [decodePairs, highDigit.value?_eq, lowDigit.value?_eq, hoctet, ih]
    simp

def compact (text : String) : List Char :=
  text.toList.filter (· ∉ blanks)

theorem decode?_eq (text : String) : decode? text = decodePairs #[] (compact text) := by
  rw [decode?, filter_not_isBlank, compact]

theorem decode?_eq_some_iff {text : String} :
    decode? text = some octets ↔ IsSpelling (compact text) octets.toList := by
  rw [decode?_eq]
  constructor
  · intro h
    obtain ⟨spelt, rfl, hspelt⟩ := exists_of_decodePairs h
    simpa using hspelt
  · intro h
    simpa using decodePairs_of_isSpelling h #[]

theorem decode?_eq_none_iff {text : String} :
    decode? text = none ↔
      (∃ c ∈ compact text, ∀ value, ¬IsDigit c value) ∨ (compact text).length % 2 = 1 := by
  rw [Option.eq_none_iff_forall_not_mem]
  constructor
  · intro h
    by_cases hdigits : ∀ c ∈ compact text, ∃ value, IsDigit c value
    · refine .inr ((Nat.mod_two_eq_zero_or_one _).resolve_left fun heven => ?_)
      obtain ⟨spelt, hspelt⟩ := exists_isSpelling hdigits heven
      exact h spelt.toArray (decode?_eq_some_iff.2 hspelt)
    · simp only [Classical.not_forall, not_exists] at hdigits
      obtain ⟨c, hmem, hno⟩ := hdigits
      exact .inl ⟨c, hmem, hno⟩
  · intro h octets hoctets
    have hspelling := decode?_eq_some_iff.1 hoctets
    have := hspelling.length_eq
    rcases h with ⟨c, hmem, hno⟩ | hodd
    · obtain ⟨value, hvalue⟩ := hspelling.exists_isDigit hmem
      exact hno value hvalue
    · omega

/-! ## White space and case -/

theorem decode?_of_isSpaced {text variant : String}
    (h : IsSpaced blanks text.toList variant.toList) : decode? variant = decode? text := by
  rw [decode?_eq, decode?_eq, compact, compact, h.filter_eq]

theorem decodePairs_map_toLower (octets : Octets) (text : List Char) :
    decodePairs octets (text.map Char.toLower) = decodePairs octets text := by
  fun_induction decodePairs octets text with
  | case1 octets => rfl
  | case2 octets c => rfl
  | case3 octets high low rest highValue lowValue hlow hhigh ih =>
    simp only [List.map_cons, decodePairs, value?_toLower, hhigh, hlow, ih]
  | case4 octets high low rest hnone =>
    simp only [List.map_cons, decodePairs, value?_toLower]

theorem map_toLower_compact (text : String) :
    (compact text).map Char.toLower = (text.toList.map Char.toLower).filter (· ∉ blanks) := by
  rw [compact, ← filter_not_isBlank, ← filter_not_isBlank, List.filter_map]
  simp only [Function.comp_def, isBlank_toLower]

theorem decode?_of_sameButCase {left right : String} (h : sameButCase left right) :
    decode? left = decode? right := by
  rw [decode?_eq, decode?_eq, ← decodePairs_map_toLower #[] (compact left),
    ← decodePairs_map_toLower #[] (compact right), map_toLower_compact, map_toLower_compact,
    eq_of_beq h]

/-! ## Showing -/

/-- What spells octets is their digits but for case. -/
theorem sameButCase_plain_iff {text : String} :
    sameButCase text (plain octets) ↔ IsSpelling text.toList octets.toList := by
  have hplain := (isSpelling_digits octets.toList).map_toLower_eq
  rw [sameButCase, plain, String.toList_ofList, hplain, beq_iff_eq]
  constructor
  · intro h
    have hread : decodePairs #[] text.toList = some ((#[] : Octets) ++ octets.toList) := by
      rw [← decodePairs_map_toLower, h, decodePairs_of_isSpelling (isSpelling_digits _)]
    obtain ⟨spelt, hout, hspelt⟩ := exists_of_decodePairs hread
    obtain rfl : octets.toList = spelt := by simpa using congrArg Array.toList hout
    exact hspelt
  · exact IsSpelling.map_toLower_eq

theorem filter_intersperse {keep : Char → Bool} (hspace : keep ' ' = false) :
    ∀ {pieces : List (List Char)}, (∀ piece ∈ pieces, ∀ c ∈ piece, keep c) →
      (pieces.intersperse [' ']).flatten.filter keep = pieces.flatten
  | [], _ => rfl
  | [piece], h => by simpa using h
  | piece :: next :: pieces, h => by
    obtain ⟨hpiece, hpieces⟩ := List.forall_mem_cons.1 h
    rw [List.intersperse_cons_cons, List.flatten_cons, List.flatten_cons, List.filter_append,
      List.filter_append, filter_intersperse hspace hpieces, List.filter_eq_self.2 hpiece,
      List.filter_cons_of_neg (by simp [hspace]), List.flatten_cons]
    rfl

/-- Where spaces are left out and digits are not, the digits are left. -/
theorem filter_spaced {keep : Char → Bool} (hspace : keep ' ' = false)
    (hdigit : ∀ {c value}, IsDigit c value → keep c) (octets : Octets) :
    (spaced octets).toList.filter keep = octets.toList.flatMap digits := by
  rw [spaced, String.toList_ofList, filter_intersperse hspace, List.flatMap_def]
  intro piece hpiece c hmem
  obtain ⟨octet, _, rfl⟩ := List.mem_map.1 hpiece
  have hspelling : IsSpelling (digits octet) [octet] := by simpa using isSpelling_digits [octet]
  obtain ⟨value, hvalue⟩ := hspelling.exists_isDigit hmem
  exact hdigit hvalue

theorem compact_spaced (octets : Octets) :
    compact (spaced octets) = octets.toList.flatMap digits :=
  filter_spaced (by decide) (fun h => by simpa using h.not_mem_blanks) octets

theorem decode?_spaced (octets : Octets) : decode? (spaced octets) = some octets := by
  rw [decode?_eq_some_iff, compact_spaced]
  exact isSpelling_digits octets.toList

/-- **Text is read as the digits in it.** A text gives octets exactly if without its white space it
is their digits, and it gives nothing exactly if some other character or one digit too many is left.
So what is shown of octets gives them back, white space can be put in and left out anywhere and case
changed without a change in what is read, and what is shown of the octets read is, spaces apart, the
text in lower case. -/
theorem decode?_reads_digits :
    (∀ (text : String) (octets : Octets), decode? text = some octets ↔
      IsSpelling (text.toList.filter (· ∉ blanks)) octets.toList) ∧
    (∀ (text : List Char) (spelt : List UInt8), IsSpelling text spelt →
      text.length = 2 * spelt.length) ∧
    (∀ text : String, decode? text = none ↔
      (∃ c ∈ text.toList.filter (· ∉ blanks), ∀ value, ¬IsDigit c value) ∨
        (text.toList.filter (· ∉ blanks)).length % 2 = 1) ∧
    (∀ octets : Octets, decode? (spaced octets) = some octets) ∧
    (∀ text variant : String, IsSpaced blanks text.toList variant.toList →
      decode? variant = decode? text) ∧
    (∀ left right : String, sameButCase left right → decode? left = decode? right) ∧
    (∀ (text : String) (octets : Octets), decode? text = some octets →
      (spaced octets).toList.filter (· ≠ ' ') =
        (text.toList.filter (· ∉ blanks)).map Char.toLower) := by
  refine ⟨fun text octets => decode?_eq_some_iff, fun text spelt => IsSpelling.length_eq,
    fun text => decode?_eq_none_iff, decode?_spaced, fun text variant => decode?_of_isSpaced,
    fun left right => decode?_of_sameButCase, ?_⟩
  intro text octets h
  have hspace : ∀ {c value}, IsDigit c value → decide (c ≠ ' ') := by
    rintro c value hdigit
    have hblank := hdigit.not_mem_blanks
    simp only [ne_eq, decide_eq_true_eq]
    rintro rfl
    exact hblank (by decide)
  rw [filter_spaced (by decide) hspace]
  exact (decode?_eq_some_iff.1 h).map_toLower_eq.symm

/-- Two octets are read with a line feed between the digits of one of them and in another case, and
not with a vertical tab or one more digit. -/
theorem decode?_reads_digits_sample :
    IsSpaced blanks "ABc0".toList "AB c\n0".toList ∧ decode? "AB c\n0" = decode? "ABc0" ∧
    sameButCase "ABc0" "abC0" ∧ decode? "ABc0" = decode? "abC0" ∧
    decode? "AB c\n0" = some #[0xab, 0xc0] ∧
    (spaced #[0xab, 0xc0]).toList.filter (· ≠ ' ') =
      ("AB c\n0".toList.filter (· ∉ blanks)).map Char.toLower ∧
    decode? "AB\x0bc0" = none ∧ decode? "ABc" = none := by
  obtain ⟨hread, _, hnone, _, hspaced, hcase, hshown⟩ := decode?_reads_digits
  have hvariant : IsSpaced blanks "ABc0".toList "AB c\n0".toList :=
    .keep (.keep (.insert (by decide) (.keep (.insert (by decide) (.keep .nil)))))
  have hsame : sameButCase "ABc0" "abC0" := by decide
  have hsome : decode? "AB c\n0" = some #[0xab, 0xc0] := by decide
  have htab : ∀ value, ¬IsDigit '\x0b' value := fun value h =>
    Option.some_ne_none value (h.value?_eq.symm.trans (by decide))
  exact ⟨hvariant, hspaced _ _ hvariant, hsame, hcase _ _ hsame, hsome, hshown _ _ hsome,
    (hnone _).2 (.inl ⟨'\x0b', by decide, htab⟩), (hnone _).2 (.inr (by decide))⟩

end DnsMatch.Text.Hex
