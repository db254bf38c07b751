import DnsMatch.Proofs.Wire.Name

/-! # A name is skipped wherever it stands

What the octets between two offsets are decides whether they are skipped as a
name (`IsNameAt`), and where a name is cut off decides the failure (`NameCutAt`).
Neither says anything of the octets around the name. So these have no influence,
and a name in a longer string is skipped as far behind as it stands there. -/

namespace DnsMatch.Wire

variable {octets : Octets} {cursor offset stop : Nat} {truncation : Truncation}

/-- Whether the octets at the offsets `[cursor, stop)` are a name. -/
def IsNameAt (octets : Octets) (cursor stop : Nat) : Prop :=
  ∃ name : Name, octets.slice? cursor stop = some name.encode.toArray

/-- Whether the octets at the offsets `[cursor, offset)` are labels, or none at all. -/
def LabelsTo (octets : Octets) (cursor offset : Nat) : Prop :=
  ∃ labels : List Label, octets.Spells cursor (labels.flatMap Label.encode) ∧
    offset = cursor + (labels.flatMap Label.encode).length

/-- Whether a name that starts at `cursor` is cut off: behind labels that are there in full comes
the field that is named, and the string ends before that field does. -/
inductive NameCutAt (octets : Octets) (cursor : Nat) : Truncation → Prop
  | labelLength {offset : Nat} (labels : LabelsTo octets cursor offset)
      (short : octets.size < offset + 1) :
      NameCutAt octets cursor ⟨.labelLength, offset⟩
  | label {offset : Nat} {labelLength : UInt8} (labels : LabelsTo octets cursor offset)
      (length : octets[offset]? = some labelLength) (nonzero : labelLength ≠ 0)
      (isLabel : ¬labelLength > maxLabelLength)
      (short : octets.size < offset + 1 + labelLength.toNat) :
      NameCutAt octets cursor ⟨.label, offset + 1⟩
  | pointer {offset : Nat} {first : UInt8} (labels : LabelsTo octets cursor offset)
      (start : octets[offset]? = some first) (isPointer : first > maxLabelLength)
      (short : octets.size < offset + 1 + 1) :
      NameCutAt octets cursor ⟨.pointer, offset + 1⟩

def Truncation.shift (count : Nat) (truncation : Truncation) : Truncation :=
  ⟨truncation.field, count + truncation.offset⟩

/-! ## Names -/

theorem isNameAt_iff :
    IsNameAt octets cursor stop ↔ ∃ name : Name, octets.Spells cursor name.encode ∧
      stop = cursor + name.encode.length ∧ stop ≤ octets.size := by
  simp only [IsNameAt, Octets.slice?_eq_some_toArray_iff]

theorem IsNameAt.bounds (h : IsNameAt octets cursor stop) : cursor < stop ∧ stop ≤ octets.size := by
  obtain ⟨name, _, rfl, hsize⟩ := isNameAt_iff.1 h
  have := name.length_encode_pos
  exact ⟨by omega, hsize⟩

theorem IsNameAt.append_left (h : IsNameAt octets cursor stop) (before : Octets) :
    IsNameAt (before ++ octets) (before.size + cursor) (before.size + stop) := by
  obtain ⟨name, hspells, rfl, hsize⟩ := isNameAt_iff.1 h
  refine isNameAt_iff.2 ⟨name, (Octets.spells_append_add _ _ _ _).2 hspells, by omega, ?_⟩
  rw [Array.size_append]
  omega

theorem skipName_eq_ok_iff_isNameAt (hmax : octets.size ≤ Offset.max) :
    skipName octets cursor = .ok stop ↔ IsNameAt octets cursor stop := by
  rw [skipName_eq_ok_iff, isNameAt_iff]
  refine exists_congr fun name => and_congr_right fun _ => and_congr_right fun _ => ?_
  exact ⟨fun h => h.1, fun h => ⟨h, Nat.le_trans h hmax⟩⟩

/-! ## Names that are cut off -/

theorem LabelsTo.refl (octets : Octets) (cursor : Nat) : LabelsTo octets cursor cursor :=
  ⟨[], by simp, by simp⟩

/-- Labels behind a label. -/
theorem LabelsTo.cons {labelLength : UInt8} {text : List UInt8} (hzero : labelLength ≠ 0)
    (hgt : ¬labelLength > maxLabelLength) (hlength : text.length = labelLength.toNat)
    (hspells : octets.Spells cursor (labelLength :: text))
    (h : LabelsTo octets (cursor + 1 + labelLength.toNat) offset) :
    LabelsTo octets cursor offset := by
  obtain ⟨label, hlabel⟩ := exists_label hzero hgt hlength
  obtain ⟨labels, hlabels, rfl⟩ := h
  have hlabelLength : label.encode.length = 1 + labelLength.toNat := by
    rw [hlabel, List.length_cons]
    omega
  refine ⟨label :: labels, ?_, ?_⟩
  · rw [List.flatMap_cons, Octets.spells_append, hlabelLength, ← Nat.add_assoc, hlabel]
    exact ⟨hspells, hlabels⟩
  · rw [List.flatMap_cons, List.length_append, hlabelLength]
    omega

theorem LabelsTo.append_left (h : LabelsTo octets cursor offset) (before : Octets) :
    LabelsTo (before ++ octets) (before.size + cursor) (before.size + offset) := by
  obtain ⟨labels, hspells, rfl⟩ := h
  exact ⟨labels, (Octets.spells_append_add _ _ _ _).2 hspells, by omega⟩

theorem NameCutAt.cons {labelLength : UInt8} {text : List UInt8} (hzero : labelLength ≠ 0)
    (hgt : ¬labelLength > maxLabelLength) (hlength : text.length = labelLength.toNat)
    (hspells : octets.Spells cursor (labelLength :: text))
    (h : NameCutAt octets (cursor + 1 + labelLength.toNat) truncation) :
    NameCutAt octets cursor truncation := by
  cases h with
  | labelLength hlabels hshort =>
    exact .labelLength (hlabels.cons hzero hgt hlength hspells) hshort
  | label hlabels hread hzero' hgt' hshort =>
    exact .label (hlabels.cons hzero hgt hlength hspells) hread hzero' hgt' hshort
  | pointer hlabels hread hgt' hshort =>
    exact .pointer (hlabels.cons hzero hgt hlength hspells) hread hgt' hshort

theorem NameCutAt.append_left (h : NameCutAt octets cursor truncation) (before : Octets) :
    NameCutAt (before ++ octets) (before.size + cursor) (truncation.shift before.size) := by
  have hsize : (before ++ octets).size = before.size + octets.size := Array.size_append
  have hget : ∀ offset, (before ++ octets)[before.size + offset]? = octets[offset]? := by
    intro offset
    rw [Array.getElem?_append_right (by omega), Nat.add_sub_cancel_left]
  cases h with
  | @labelLength offset hlabels hshort =>
    have hshort' : (before ++ octets).size < before.size + offset + 1 := by omega
    exact .labelLength (hlabels.append_left before) hshort'
  | @label offset labelLength hlabels hread hzero hgt hshort =>
    have hshort' : (before ++ octets).size < before.size + offset + 1 + labelLength.toNat := by
      omega
    exact .label (hlabels.append_left before) ((hget _).trans hread) hzero hgt hshort'
  | @pointer offset first hlabels hread hgt hshort =>
    have hshort' : (before ++ octets).size < before.size + offset + 1 + 1 := by omega
    exact .pointer (hlabels.append_left before) ((hget _).trans hread) hgt hshort'

/-- A failure to skip a name blames the first field of it that does not fit. -/
theorem nameCutAt_of_skipName (hmax : octets.size ≤ Offset.max)
    (h : skipName octets cursor = .error truncation) : NameCutAt octets cursor truncation := by
  fun_induction skipName octets cursor with
  | case1 cursor truncation' hlength =>
    cases h
    obtain ⟨rfl, hshort⟩ := (readU8_eq_error_iff hmax).1 hlength
    exact .labelLength (.refl octets cursor) hshort
  | case2 cursor next hlength => cases h
  | case3 cursor labelLength next hlength hzero hgt =>
    obtain ⟨hspells, rfl, _⟩ := readU8_eq_ok_iff.1 hlength
    obtain ⟨rfl, hshort⟩ := (skip_eq_error_iff hmax).1 h
    exact .pointer (.refl octets cursor) (Octets.spells_cons.1 hspells).1 hgt hshort
  | case4 cursor labelLength next hlength hzero hgt truncation' hlabel =>
    cases h
    obtain ⟨hspells, rfl, _⟩ := readU8_eq_ok_iff.1 hlength
    obtain ⟨rfl, hshort⟩ := (skip_eq_error_iff hmax).1 hlabel
    exact .label (.refl octets cursor) (Octets.spells_cons.1 hspells).1 hzero hgt hshort
  | case5 cursor labelLength next hlength hzero hgt labelEnd hlabel _ ih =>
    obtain ⟨hspells, rfl, _⟩ := readU8_eq_ok_iff.1 hlength
    obtain ⟨rfl, hadmits⟩ := skip_eq_ok_iff.1 hlabel
    obtain ⟨text, htext, htextSpells⟩ := Octets.exists_spells hadmits.1
    refine NameCutAt.cons hzero hgt htext ?_ (ih h)
    exact Octets.spells_cons.2 ⟨(Octets.spells_cons.1 hspells).1, htextSpells⟩

/-- Labels that are there are passed one by one. -/
theorem skipName_of_labelsTo (hmax : octets.size ≤ Offset.max)
    (h : LabelsTo octets cursor offset) : skipName octets cursor = skipName octets offset := by
  obtain ⟨labels, hspells, rfl⟩ := h
  induction labels generalizing cursor with
  | nil => rfl
  | cons label labels ih =>
    have hlabelLength : label.encode.length = label.text.length + 1 := rfl
    rw [List.flatMap_cons, Octets.spells_append] at hspells
    have hsize := hspells.1.le_size (by omega)
    have hlength : readU8 octets cursor .labelLength =
        .ok (UInt8.ofNat label.text.length, cursor + 1) :=
      readU8_eq_ok_iff.2 ⟨hspells.1.head, rfl, by omega, by omega⟩
    rw [skipName_of_label hlength, skip_of_le hmax (by omega), ok_bind, List.flatMap_cons,
      List.length_append, show cursor + 1 + label.text.length = cursor + label.encode.length by
        omega, ih hspells.2, Nat.add_assoc]

theorem skipName_of_nameCutAt (hmax : octets.size ≤ Offset.max)
    (h : NameCutAt octets cursor truncation) : skipName octets cursor = .error truncation := by
  have hread : ∀ {offset : Nat} {octet : UInt8}, octets[offset]? = some octet →
      readU8 octets offset .labelLength = .ok (octet, offset + 1) := by
    intro offset octet hget
    have hlt := (Array.getElem?_eq_some_iff.1 hget).1
    exact readU8_eq_ok_iff.2
      ⟨Octets.spells_cons.2 ⟨hget, Octets.spells_nil⟩, rfl, hlt, Nat.le_trans hlt hmax⟩
  cases h with
  | labelLength hlabels hshort =>
    rw [skipName_of_labelsTo hmax hlabels, skipName_eq, readU8_cut hshort]
    rfl
  | label hlabels hlength hzero hgt hshort =>
    rw [skipName_of_labelsTo hmax hlabels, skipName_eq, hread hlength]
    simp only [ok_bind, if_neg hzero, if_neg hgt, skip_cut hshort, error_bind]
  | pointer hlabels hstart hgt hshort =>
    rw [skipName_of_labelsTo hmax hlabels, skipName_of_pointer (hread hstart) hgt, skip_cut hshort]

theorem skipName_eq_error_iff (hmax : octets.size ≤ Offset.max) :
    skipName octets cursor = .error truncation ↔ NameCutAt octets cursor truncation :=
  ⟨nameCutAt_of_skipName hmax, skipName_of_nameCutAt hmax⟩

/-! ## Around the name -/

/-- What is before a name and what is behind it have no say in its being skipped. -/
theorem skipName_of_agree {other : Octets} (h : skipName octets cursor = .ok stop)
    (hagree : ∀ i, cursor ≤ i → i < stop → other[i]? = octets[i]?) :
    skipName other cursor = .ok stop := by
  obtain ⟨name, hspells, rfl, hadmits⟩ := skipName_eq_ok_iff.1 h
  have hspells' : other.Spells cursor name.encode := (Octets.spells_congr hagree).2 hspells
  exact skipName_of_spells hspells' ⟨hspells'.le_size name.length_encode_pos, hadmits.2⟩

/-- A name in a longer string is skipped as far behind as it stands there. -/
theorem skipName_append_add {before : Octets} (hmax : before.size + octets.size ≤ Offset.max) :
    skipName (before ++ octets) (before.size + cursor) =
      ((skipName octets cursor).map (before.size + ·)).mapError (·.shift before.size) := by
  have hsize : (before ++ octets).size = before.size + octets.size := Array.size_append
  cases h : skipName octets cursor with
  | ok stop =>
    exact (skipName_eq_ok_iff_isNameAt (by omega)).2
      (((skipName_eq_ok_iff_isNameAt (by omega)).1 h).append_left before)
  | error truncation =>
    exact (skipName_eq_error_iff (by omega)).2
      (((skipName_eq_error_iff (by omega)).1 h).append_left before)

/-- **Skipping a name accepts exactly the names, wherever they stand.** It ends at an offset exactly
if the octets up to there are a name. There is one such offset at most, behind the cursor and in the
string. Otherwise it fails, and blames the first field of the name that does not fit. Nothing around
a name has a say in where it ends, and octets put in front of a string shift the outcome, be it an
end or a failure, by as many. What is assumed of the strings is that their lengths are offsets. -/
theorem skipName_accepts_exactly_names (octets : Octets) (hmax : octets.size ≤ Offset.max)
    (cursor : Nat) :
    (∀ stop, skipName octets cursor = .ok stop ↔ IsNameAt octets cursor stop) ∧
    (∀ stop, IsNameAt octets cursor stop → cursor < stop ∧ stop ≤ octets.size ∧
      ∀ other, IsNameAt octets cursor other → other = stop) ∧
    (∀ truncation, skipName octets cursor = .error truncation ↔
      NameCutAt octets cursor truncation) ∧
    (∀ stop, skipName octets cursor = .ok stop → ∀ other : Octets,
      (∀ i, cursor ≤ i → i < stop → other[i]? = octets[i]?) → skipName other cursor = .ok stop) ∧
    ∀ before : Octets, before.size + octets.size ≤ Offset.max →
      skipName (before ++ octets) (before.size + cursor) =
        ((skipName octets cursor).map (before.size + ·)).mapError (·.shift before.size) := by
  refine ⟨fun stop => skipName_eq_ok_iff_isNameAt hmax, ?_,
    fun truncation => skipName_eq_error_iff hmax, fun stop h other => skipName_of_agree h,
    fun before => skipName_append_add⟩
  intro stop h
  refine ⟨h.bounds.1, h.bounds.2, ?_⟩
  intro other hother
  have hskip := (skipName_eq_ok_iff_isNameAt hmax).2 h
  rw [(skipName_eq_ok_iff_isNameAt hmax).2 hother] at hskip
  exact Except.ok.inj hskip

/-- A label and a pointer between other octets: skipped, also with those octets changed or with more
in front, and cut off in the label and in the pointer. -/
theorem skipName_accepts_exactly_names_sample :
    skipName #[0xff, 2, 0x61, 0x62, 0xc0, 0x00, 0xff] 1 = .ok 6 ∧
      skipName #[3, 2, 0x61, 0x62, 0xc0, 0x00] 1 = .ok 6 ∧
      skipName (#[0, 0, 0] ++ #[0xff, 2, 0x61, 0x62, 0xc0, 0x00, 0xff]) (3 + 1) = .ok 9 ∧
      skipName #[0xff, 2, 0x61] 1 = .error ⟨.label, 2⟩ ∧
      skipName #[0xff, 2, 0x61, 0x62, 0xc0] 1 = .error ⟨.pointer, 5⟩ := by
  obtain ⟨hok, hbounds, _, hagree, hshift⟩ :=
    skipName_accepts_exactly_names #[0xff, 2, 0x61, 0x62, 0xc0, 0x00, 0xff] (by decide) 1
  have hname : IsNameAt #[0xff, 2, 0x61, 0x62, 0xc0, 0x00, 0xff] 1 6 :=
    ⟨⟨[⟨[0x61, 0x62], by decide, by decide⟩], .pointer 0xc0 0x00 (by decide)⟩, by decide⟩
  have hskip := (hok 6).2 hname
  have hinside : ∀ i < 6, 1 ≤ i → (#[3, 2, 0x61, 0x62, 0xc0, 0x00] : Octets)[i]? =
      (#[0xff, 2, 0x61, 0x62, 0xc0, 0x00, 0xff] : Octets)[i]? := by
    decide
  have hlonger := hshift #[0, 0, 0] (by decide)
  rw [hskip] at hlonger
  refine ⟨hskip, hagree 6 hskip _ fun i hle hlt => hinside i hlt hle, hlonger, ?_, ?_⟩
  · exact ((skipName_accepts_exactly_names #[0xff, 2, 0x61] (by decide) 1).2.2.1 _).2
      (.label (.refl _ 1) rfl (by decide) (by decide) (by decide))
  · exact ((skipName_accepts_exactly_names #[0xff, 2, 0x61, 0x62, 0xc0] (by decide) 1).2.2.1 _).2
      (.pointer ⟨[⟨[0x61, 0x62], by decide, by decide⟩], by simp [Label.encode], rfl⟩ rfl
        (by decide) (by decide))

end DnsMatch.Wire
