import DnsMatch.Proofs.Wire.Cursor
import DnsMatch.Wire.Message

/-! # Names are skipped as they are written

`skipName_eq_ok_iff` says that skipping a name succeeds exactly where the
octets of some `Name` are spelled, and ends behind them. -/

namespace DnsMatch.Wire

variable {octets : Octets} {cursor stop : Nat}

/-- One turn of the loop over the labels of a name. -/
theorem skipName_eq (octets : Octets) (cursor : Nat) :
    skipName octets cursor = (do
      let (labelLength, next) ← readU8 octets cursor .labelLength
      if labelLength = 0 then .ok next
      else if labelLength > maxLabelLength then skip octets next 1 .pointer
      else do
        let labelEnd ← skip octets next labelLength.toNat .label
        skipName octets labelEnd) := by
  rw [skipName]
  split
  · next truncation hlength => simp only [hlength, bind, Except.bind]
  · next labelLength next hlength =>
    simp only [hlength, bind, Except.bind]
    split
    · rfl
    split
    · rfl
    split
    · next truncation hlabel => simp only [hlabel]
    · next labelEnd hlabel => simp only [hlabel]

/-- An octet that begins a pointer ends a name, whatever else it says. -/
theorem skipName_of_pointer {first : UInt8} {next : Nat}
    (h : readU8 octets cursor .labelLength = .ok (first, next)) (hgt : first > maxLabelLength) :
    skipName octets cursor = skip octets next 1 .pointer := by
  have hzero : first ≠ 0 := by
    rintro rfl
    exact absurd hgt (by decide)
  rw [skipName_eq, h]
  simp only [bind, Except.bind, if_neg hzero, if_pos hgt]

/-- The length octet of a label says that it is one. -/
theorem Label.ofNat_length (label : Label) :
    UInt8.ofNat label.text.length ≠ 0 ∧ ¬UInt8.ofNat label.text.length > maxLabelLength ∧
      (UInt8.ofNat label.text.length).toNat = label.text.length := by
  have hpos := label.text_pos
  have hle : label.text.length ≤ 63 := label.text_le
  have htoNat : (UInt8.ofNat label.text.length).toNat = label.text.length := by
    rw [UInt8.toNat_ofNat']
    omega
  refine ⟨?_, ?_, htoNat⟩
  · intro hzero
    rw [hzero] at htoNat
    simp at htoNat
    omega
  · intro hgt
    have : 63 < label.text.length := htoNat ▸ UInt8.lt_iff_toNat_lt.1 hgt
    omega

/-- Behind a label the name goes on. -/
theorem skipName_of_label {label : Label} {next : Nat}
    (h : readU8 octets cursor .labelLength = .ok (UInt8.ofNat label.text.length, next)) :
    skipName octets cursor = (skip octets next label.text.length .label >>= skipName octets) := by
  obtain ⟨hzero, hgt, htoNat⟩ := label.ofNat_length
  rw [skipName_eq, h]
  simp only [bind, Except.bind, if_neg hzero, if_neg hgt, htoNat]

theorem toNat_le_of_not_gt {labelLength : UInt8} (h : ¬labelLength > maxLabelLength) :
    labelLength.toNat ≤ maxLabelLength.toNat :=
  Nat.le_of_not_lt fun hlt => h (UInt8.lt_iff_toNat_lt.2 hlt)

/-- A length octet from 1 to 63 and what it counts are a label. -/
theorem exists_label {labelLength : UInt8} {text : List UInt8} (hzero : labelLength ≠ 0)
    (hgt : ¬labelLength > maxLabelLength) (hlength : text.length = labelLength.toNat) :
    ∃ label : Label, label.encode = labelLength :: text := by
  have hpos : 0 < labelLength.toNat := by
    apply Nat.pos_of_ne_zero
    intro h
    exact hzero (UInt8.toNat_inj.1 h)
  have hle := toNat_le_of_not_gt hgt
  refine ⟨⟨text, by omega, by omega⟩, ?_⟩
  simp [Label.encode, hlength]

theorem Name.encode_cons (label : Label) (labels : List Label) (ending : NameEnd) :
    (Name.mk (label :: labels) ending).encode =
      UInt8.ofNat label.text.length :: (label.text ++ (Name.mk labels ending).encode) := by
  simp [Name.encode, Label.encode]

theorem Name.length_encode_pos (name : Name) : 0 < name.encode.length := by
  have hending : 0 < name.ending.encode.length := by
    cases name.ending with
    | root => exact Nat.zero_lt_one
    | pointer first second hgt => exact Nat.zero_lt_two
  rw [Name.encode, List.length_append]
  omega

/-- What is skipped as a name is one. -/
theorem exists_name_of_skipName (h : skipName octets cursor = .ok stop) :
    ∃ name : Name, octets.Spells cursor name.encode ∧ stop = cursor + name.encode.length ∧
      octets.Admits stop := by
  fun_induction skipName octets cursor with
  | case1 cursor truncation hlength => cases h
  | case2 cursor next hlength =>
    obtain ⟨hspells, rfl, hadmits⟩ := readU8_eq_ok_iff.1 hlength
    cases h
    exact ⟨⟨[], .root⟩, by simpa [Name.encode, NameEnd.encode] using hspells, rfl, hadmits⟩
  | case3 cursor labelLength next hlength hzero hgt =>
    obtain ⟨hspells, rfl, hadmits⟩ := readU8_eq_ok_iff.1 hlength
    obtain ⟨rfl, hadmits⟩ := skip_eq_ok_iff.1 h
    -- the second octet of a pointer is passed over, whatever it is
    obtain ⟨second, hsecond⟩ : ∃ second, octets[cursor + 1]? = some second :=
      ⟨_, Array.getElem?_eq_getElem hadmits.1⟩
    refine ⟨⟨[], .pointer labelLength second hgt⟩, ?_, rfl, hadmits⟩
    simpa [Name.encode, NameEnd.encode, hsecond] using hspells
  | case4 cursor labelLength next hlength hzero hgt truncation hlabel => cases h
  | case5 cursor labelLength next hlength hzero hgt labelEnd hlabel _ ih =>
    obtain ⟨hspells, rfl, _⟩ := readU8_eq_ok_iff.1 hlength
    obtain ⟨rfl, hadmits⟩ := skip_eq_ok_iff.1 hlabel
    obtain ⟨text, htext, htextSpells⟩ := Octets.exists_spells hadmits.1
    obtain ⟨label, hlabelEncode⟩ := exists_label hzero hgt htext
    obtain ⟨⟨labels, ending⟩, hrest, hstop, hadmits⟩ := ih h
    have hencode : (Name.mk (label :: labels) ending).encode =
        labelLength :: (text ++ (Name.mk labels ending).encode) := by
      simp [Name.encode, hlabelEncode]
    refine ⟨⟨label :: labels, ending⟩, ?_, ?_, hadmits⟩
    · rw [hencode, Octets.spells_cons, Octets.spells_append, htext]
      exact ⟨by simpa using hspells, htextSpells, hrest⟩
    · rw [hencode, hstop, List.length_cons, List.length_append, htext]
      omega

/-- A name that is written down is skipped. -/
theorem skipName_of_spells {name : Name} (h : octets.Spells cursor name.encode)
    (hadmits : octets.Admits (cursor + name.encode.length)) :
    skipName octets cursor = .ok (cursor + name.encode.length) := by
  obtain ⟨labels, ending⟩ := name
  induction labels generalizing cursor with
  | nil =>
    have hencode : (Name.mk [] ending).encode = ending.encode := rfl
    rw [hencode] at h hadmits ⊢
    cases ending with
    | root =>
      rw [skipName_eq, readU8_eq_ok_iff.2 ⟨h, rfl, hadmits⟩]
      rfl
    | pointer first second hgt =>
      rw [skipName_of_pointer (readU8_eq_ok_iff.2
        ⟨h.head, rfl, hadmits.mono (by simp [NameEnd.encode])⟩) hgt]
      exact skip_eq_ok_iff.2 ⟨rfl, hadmits⟩
  | cons label labels ih =>
    rw [Name.encode_cons] at h hadmits ⊢
    simp only [List.length_cons, List.length_append] at hadmits ⊢
    have hlength : readU8 octets cursor .labelLength =
        .ok (UInt8.ofNat label.text.length, cursor + 1) :=
      readU8_eq_ok_iff.2 ⟨h.head, rfl, hadmits.mono (by omega)⟩
    rw [Octets.spells_cons, Octets.spells_append] at h
    have hlabel : skip octets (cursor + 1) label.text.length .label =
        .ok (cursor + 1 + label.text.length) :=
      skip_eq_ok_iff.2 ⟨rfl, hadmits.mono (by omega)⟩
    have hstop : cursor + 1 + label.text.length + (Name.mk labels ending).encode.length =
        cursor + (label.text.length + (Name.mk labels ending).encode.length + 1) := by omega
    rw [skipName_of_label hlength, hlabel]
    rw [← hstop] at hadmits ⊢
    exact ih h.2.2 hadmits

/-- **Skipping a name succeeds exactly where one is written**, and ends behind it. -/
theorem skipName_eq_ok_iff :
    skipName octets cursor = .ok stop ↔
      ∃ name : Name, octets.Spells cursor name.encode ∧ stop = cursor + name.encode.length ∧
        octets.Admits stop := by
  constructor
  · exact exists_name_of_skipName
  · rintro ⟨name, hspells, rfl, hadmits⟩
    exact skipName_of_spells hspells hadmits

end DnsMatch.Wire
