import DnsMatch.MessageFile
import DnsMatch.Proofs.Text.Base64
import DnsMatch.Proofs.Text.Hex

/-! # Files in every format

A file holds octets in a format if it is what the format writes for them, with
white space put in anywhere where it is text (`Format.Holds`). What is read from
a file is what it holds, whatever the format, and a file holds one octet string
at most. A file that holds octets in hexadecimal is ASCII, so that it is never
refused for not being UTF-8. -/

namespace DnsMatch

variable {host : Host} {contents octets : Octets} {format : Format}

namespace Text

/-! ## ASCII in files -/

variable {text : String} {bytes : ByteArray}

theorem fromUTF8?_eq_some_iff : String.fromUTF8? bytes = some text ↔ text.toUTF8 = bytes := by
  constructor
  · intro h
    unfold String.fromUTF8? at h
    split at h
    · rw [← Option.some.inj h]
      rfl
    · cases h
  · rintro rfl
    exact dif_pos text.isValidUTF8

/-- In UTF-8 each ASCII character is one octet. -/
theorem toList_toUTF8 (h : ∀ c ∈ text.toList, c.toNat < 128) :
    text.toUTF8.data.toList = text.toList.map Char.toUInt8 := by
  have hchar : ∀ c ∈ text.toList, String.utf8EncodeChar c = [c.toUInt8] := fun c hmem =>
    String.utf8EncodeChar_eq_singleton (Char.utf8Size_eq_one_iff.2
      (UInt32.le_iff_toNat_le.2 (Nat.le_of_lt_succ (h c hmem))))
  rw [String.toUTF8_eq_toByteArray, ← String.utf8Encode_toList, List.utf8Encode,
    List.toList_data_toByteArray, List.map_eq_flatMap, List.flatMap_def, List.flatMap_def,
    List.map_congr_left hchar]

theorem lt_128_of_mem_blanks {c : Char} (h : c ∈ blanks) : c.toNat < 128 := by
  have hblank := mem_blanks_iff.1 h
  simp only [isBlank, isBlankCode, Bool.or_eq_true, beq_iff_eq] at hblank
  omega

end Text

/-! ## What a file holds -/

/-- Whether contents are what a format writes for octets, with white space put in anywhere where
this is text. Hexadecimal digits may be of either case. -/
def Format.Holds (format : Format) (contents octets : Octets) : Prop :=
  match format with
  | .raw => contents = octets
  | .hex => ∃ digits : String, Text.sameButCase digits (Text.Hex.plain octets) ∧
      Text.IsSpaced Text.blankOctets digits.toUTF8.data.toList contents.toList
  | .base64 => Text.IsSpaced Text.blankOctets (Text.Base64.encode octets.toList) contents.toList

namespace Text.Hex

/-- A text that is digits and white space is ASCII. -/
theorem lt_128_of_isSpelling {text : String} {spelt : List UInt8}
    (h : IsSpelling (compact text) spelt) : ∀ c ∈ text.toList, c.toNat < 128 := by
  intro c hmem
  by_cases hblank : c ∈ blanks
  · exact lt_128_of_mem_blanks hblank
  · have hcompact : c ∈ compact text := List.mem_filter.2 ⟨hmem, by simpa using hblank⟩
    obtain ⟨value, hdigit⟩ := h.exists_isDigit hcompact
    exact hdigit.lt_128

theorem compact_ofList {text spaced : List Char} (hspaced : IsSpaced blanks text spaced)
    {spelt : List UInt8} (h : IsSpelling text spelt) : compact (String.ofList spaced) = text := by
  rw [compact, String.toList_ofList, ← isSpaced_iff_filter_eq]
  · exact hspaced
  · intro c hmem
    obtain ⟨value, hdigit⟩ := h.exists_isDigit hmem
    exact hdigit.not_mem_blanks

end Text.Hex

namespace Format

open Text (blanks blankOctets)
open Text.Hex (IsSpelling compact)

/-- A file holds octets in hexadecimal if it is the UTF-8 of a text that spells them. -/
theorem holds_hex_iff :
    Format.hex.Holds contents octets ↔ ∃ text : String, text.toUTF8 = ⟨contents⟩ ∧
      IsSpelling (compact text) octets.toList := by
  constructor
  · rintro ⟨digits, hsame, hspaced⟩
    have hspelling := Text.Hex.sameButCase_plain_iff.1 hsame
    have hascii : ∀ c ∈ digits.toList, c.toNat < 128 := fun c hmem =>
      (hspelling.exists_isDigit hmem).elim fun _ hdigit => hdigit.lt_128
    rw [Text.toList_toUTF8 hascii, Text.blankOctets_eq] at hspaced
    obtain ⟨spaced, hcontents, hvariant⟩ := Text.exists_of_isSpaced_map hspaced
    have hcompact := Text.Hex.compact_ofList hvariant hspelling
    rw [← hcompact] at hspelling
    refine ⟨String.ofList spaced, ?_, hspelling⟩
    have hoctets := Text.toList_toUTF8 (Text.Hex.lt_128_of_isSpelling hspelling)
    rw [String.toList_ofList, ← hcontents] at hoctets
    exact congrArg ByteArray.mk (Array.toList_inj.1 hoctets)
  · rintro ⟨text, hutf8, hspelling⟩
    refine ⟨String.ofList (compact text), ?_, ?_⟩
    · rw [Text.Hex.sameButCase_plain_iff, String.toList_ofList]
      exact hspelling
    · have hascii := Text.Hex.lt_128_of_isSpelling hspelling
      have hcontents : contents.toList = text.toList.map Char.toUInt8 := by
        rw [← Text.toList_toUTF8 hascii, hutf8]
      have hdigits : ∀ c ∈ (String.ofList (compact text)).toList, c.toNat < 128 := by
        rw [String.toList_ofList]
        exact fun c hmem => hascii c (List.mem_filter.1 hmem).1
      rw [Text.toList_toUTF8 hdigits, hcontents, String.toList_ofList, Text.blankOctets_eq]
      exact (Text.isSpaced_filter text.toList).map Char.toUInt8

theorem decode_hex_eq_ok_iff :
    Format.hex.decode host contents = .ok octets ↔ Format.hex.Holds contents octets := by
  rw [holds_hex_iff]
  simp only [← Text.Hex.decode?_eq_some_iff, ← Text.fromUTF8?_eq_some_iff, decode]
  split
  · next hnone => simp [hnone]
  · next text hsome =>
    simp only [hsome, Option.some.injEq, exists_eq_left']
    split
    · next hdecode => simp [hdecode]
    · next message hdecode => simp [hdecode]

theorem decode_base64_eq_ok_iff :
    Format.base64.decode host contents = .ok octets ↔ Format.base64.Holds contents octets := by
  rw [Holds, ← Text.Base64.decode?_eq_some_iff, decode]
  split
  · next hnone => simp [hnone]
  · next message hsome => simp [hsome]

/-- What is read from contents is what they hold. -/
theorem decode_eq_ok_iff :
    format.decode host contents = .ok octets ↔ format.Holds contents octets := by
  cases format with
  | raw => rw [decode, Except.ok.injEq, Holds]
  | hex => exact decode_hex_eq_ok_iff
  | base64 => exact decode_base64_eq_ok_iff

theorem Holds.isValidUTF8 (h : Format.hex.Holds contents octets) :
    (ByteArray.mk contents).IsValidUTF8 := by
  obtain ⟨text, hutf8, _⟩ := holds_hex_iff.1 h
  exact hutf8 ▸ text.isValidUTF8

/-! ### What is not read -/

theorem decode_hex_of_not_utf8 (h : ¬(ByteArray.mk contents).IsValidUTF8) :
    Format.hex.decode host contents = .error [.notUtf8, .foreign (host.notUtf8 contents)] := by
  have hnone : String.fromUTF8? ⟨contents⟩ = none := dif_neg h
  simp only [decode, hnone]

theorem decode_hex_of_utf8 (hutf8 : (ByteArray.mk contents).IsValidUTF8)
    (h : ∀ octets, ¬Format.hex.Holds contents octets) :
    Format.hex.decode host contents = .error [.notHex] := by
  have hsome : String.fromUTF8? ⟨contents⟩ = some (String.fromUTF8 ⟨contents⟩ hutf8) :=
    dif_pos hutf8
  have hnone : ∀ octets, Format.hex.decode host contents ≠ .ok octets :=
    fun octets hdecode => h octets (decode_eq_ok_iff.1 hdecode)
  simp only [decode, hsome] at hnone ⊢
  split
  · rfl
  · next message hdecode => exact absurd (by simp only [hdecode]) (hnone message)

theorem decode_base64_of_not_holds (h : ∀ octets, ¬Format.base64.Holds contents octets) :
    Format.base64.decode host contents =
      .error [.notBase64, .foreign (host.notBase64 contents)] := by
  have hnone : ∀ octets, Format.base64.decode host contents ≠ .ok octets :=
    fun octets hdecode => h octets (decode_eq_ok_iff.1 hdecode)
  simp only [decode] at hnone ⊢
  split
  · rfl
  · next message hdecode => exact absurd (by simp only [hdecode]) (hnone message)

end Format

/-! ## Files at a path -/

variable {path : Files.Path}

theorem loadMessage_eq (there : host.read path = .ok contents) :
    loadMessage host path format =
      (format.decode host contents).mapError (.undecoded path :: ·) := by
  simp only [loadMessage, there]

/-- **A file is read as what it holds, in every format.** A raw file gives its contents, a file of
hexadecimal digits of either case or of canonical base64 the octets these are written for, with
white space anywhere; nothing else gives octets, and a file gives one octet string at most. What
holds octets in hexadecimal is UTF-8. A file that is not is refused for that reason, any other that
holds no octets for not being hexadecimal, and in base64 for not being base64. -/
theorem loadMessage_reads_what_file_holds (there : host.read path = .ok contents) :
    (∀ format octets, loadMessage host path format = .ok octets ↔ format.Holds contents octets) ∧
    (∀ (format : Format) octets octets', format.Holds contents octets →
      format.Holds contents octets' → octets = octets') ∧
    (∀ octets, Format.hex.Holds contents octets → (ByteArray.mk contents).IsValidUTF8) ∧
    (¬(ByteArray.mk contents).IsValidUTF8 →
      loadMessage host path .hex =
        .error [.undecoded path, .notUtf8, .foreign (host.notUtf8 contents)]) ∧
    ((ByteArray.mk contents).IsValidUTF8 → (∀ octets, ¬Format.hex.Holds contents octets) →
      loadMessage host path .hex = .error [.undecoded path, .notHex]) ∧
    ((∀ octets, ¬Format.base64.Holds contents octets) →
      loadMessage host path .base64 =
        .error [.undecoded path, .notBase64, .foreign (host.notBase64 contents)]) := by
  refine ⟨?_, ?_, fun octets => Format.Holds.isValidUTF8, ?_, ?_, ?_⟩
  · intro format octets
    rw [loadMessage_eq there, ← Format.decode_eq_ok_iff]
    cases format.decode host contents with
    | error failure => exact ⟨nofun, nofun⟩
    | ok message => exact Iff.rfl
  · intro format octets octets' h h'
    have hdecode : format.decode host contents = .ok octets := Format.decode_eq_ok_iff.2 h
    exact Except.ok.inj (hdecode.symm.trans (Format.decode_eq_ok_iff.2 h'))
  · intro h
    rw [loadMessage_eq there, Format.decode_hex_of_not_utf8 h]
    rfl
  · intro hutf8 h
    rw [loadMessage_eq there, Format.decode_hex_of_utf8 hutf8 h]
    rfl
  · intro h
    rw [loadMessage_eq there, Format.decode_base64_of_not_holds h]
    rfl

/-- The same two octets in each format, a file of three digits and one that is not UTF-8. -/
def twoOctets : Host :=
  .ofFiles fun
    | ⟨"raw"⟩ => some #[0xab, 0xcd]
    | ⟨"hex"⟩ => some #[0x61, 0x42, 0x0a, 0x63, 0x20, 0x44]
    | ⟨"base64"⟩ => some #[0x71, 0x38, 0x09, 0x30, 0x3d]
    | ⟨"odd"⟩ => some #[0x61, 0x62, 0x63]
    | ⟨"latin"⟩ => some #[0xe9]
    | _ => none

/-- The octets are read from each file, with a line feed and a space between the digits of the one
and a tab between those of the other. -/
theorem loadMessage_reads_what_file_holds_sample :
    loadMessage twoOctets ⟨"raw"⟩ .raw = .ok #[0xab, 0xcd] ∧
    loadMessage twoOctets ⟨"hex"⟩ .hex = .ok #[0xab, 0xcd] ∧
    loadMessage twoOctets ⟨"base64"⟩ .base64 = .ok #[0xab, 0xcd] ∧
    loadMessage twoOctets ⟨"odd"⟩ .hex = .error [.undecoded ⟨"odd"⟩, .notHex] ∧
    loadMessage twoOctets ⟨"latin"⟩ .hex =
      .error [.undecoded ⟨"latin"⟩, .notUtf8,
        .foreign "incomplete utf-8 byte sequence from index 0"] ∧
    loadMessage twoOctets ⟨"odd"⟩ .base64 =
      .error [.undecoded ⟨"odd"⟩, .notBase64, .foreign "Invalid padding"] := by
  have hhex : Format.hex.Holds #[0x61, 0x42, 0x0a, 0x63, 0x20, 0x44] #[0xab, 0xcd] :=
    ⟨"aBcD", by decide, .keep (.keep (.insert (by decide) (.keep (.insert (by decide)
      (.keep .nil)))))⟩
  have hbase64 : Format.base64.Holds #[0x71, 0x38, 0x09, 0x30, 0x3d] #[0xab, 0xcd] :=
    .keep (.keep (.insert (by decide) (.keep (.keep .nil))))
  have hodd : ∀ format ∈ [Format.hex, .base64], ∀ octets,
      ¬format.Holds #[0x61, 0x62, 0x63] octets := by
    intro format hformat octets h
    have hdecode : format.decode twoOctets _ = .ok octets := Format.decode_eq_ok_iff.2 h
    simp only [List.mem_cons, List.not_mem_nil, or_false] at hformat
    rcases hformat with rfl | rfl
    · cases hdecode
    · cases hdecode
  obtain ⟨_, _, _, _, hnotHex, hnotBase64⟩ :=
    loadMessage_reads_what_file_holds (show twoOctets.read ⟨"odd"⟩ = _ from rfl)
  refine ⟨?_, ?_, ?_, hnotHex (by decide) (hodd _ (by decide)), ?_, hnotBase64 (hodd _ (by decide))⟩
  · exact ((loadMessage_reads_what_file_holds rfl).1 .raw _).2 rfl
  · exact ((loadMessage_reads_what_file_holds rfl).1 .hex _).2 hhex
  · exact ((loadMessage_reads_what_file_holds rfl).1 .base64 _).2 hbase64
  · exact (loadMessage_reads_what_file_holds (show twoOctets.read ⟨"latin"⟩ = _ from rfl)).2.2.2.1
      (by decide)

end DnsMatch
