import DnsMatch.Proofs.Wire.Layout
import DnsMatch.Wire.Lengths

/-! # Which octets lead the walk

In a message the walk reads as lengths the octets that the layout says to be
lengths, and no other (`Message.lengthAt_iff`). In a message that is cut off it
reads some of them (`LengthAt.of_cut`), and in no string does it read one in
the header (`LengthAt.headerLength_le`). -/

namespace DnsMatch.Wire

variable {octets : Octets} {cursor length start offset count : Nat}

/-! ## The lengths in a message -/

/-- Whether the octet at an offset is in a length, in a row of fields that starts at `start`. -/
def Layout.HoldsLength (offset start : Nat) (pieces : List Piece) : Prop :=
  ∃ place, Covers offset place start pieces ∧ place.field.isLength = true

namespace Layout

variable {pieces rest : List Piece}

@[simp] theorem not_holdsLength_nil : ¬HoldsLength offset start [] := by
  simp [HoldsLength]

@[simp] theorem holdsLength_cons {field : Field} {width : Nat} :
    HoldsLength offset start ((field, width) :: pieces) ↔
      (field.isLength = true ∧ start ≤ offset ∧ offset < start + width) ∨
        HoldsLength offset (start + width) pieces := by
  unfold HoldsLength
  constructor
  · rintro ⟨place, ⟨rfl, hle, hlt⟩ | hrest, hlength⟩
    · exact .inl ⟨hlength, hle, hlt⟩
    · exact .inr ⟨place, hrest, hlength⟩
  · rintro (⟨hlength, hle, hlt⟩ | ⟨place, hrest, hlength⟩)
    · exact ⟨⟨field, start⟩, .inl ⟨rfl, hle, hlt⟩, hlength⟩
    · exact ⟨place, .inr hrest, hlength⟩

@[simp] theorem holdsLength_append :
    HoldsLength offset start (pieces ++ rest) ↔
      HoldsLength offset start pieces ∨
        HoldsLength offset (start + Layout.length pieces) rest := by
  simp only [HoldsLength, covers_append, or_and_right, exists_or]

instance decidableHoldsLength (offset : Nat) :
    (start : Nat) → (pieces : List Piece) → Decidable (HoldsLength offset start pieces)
  | _, [] => .isFalse not_holdsLength_nil
  | start, (_, width) :: pieces =>
    have := decidableHoldsLength offset (start + width) pieces
    decidable_of_iff' _ holdsLength_cons

end Layout

open Layout (HoldsLength)

/-- Which lengths are behind a length octet of a name depends on that octet. -/
theorem nameLengthAt_iff {labelLength : UInt8} {next : Nat}
    (h : readU8 octets cursor .labelLength = .ok (labelLength, next)) :
    NameLengthAt octets cursor offset ↔
      offset = cursor ∨ labelLength ≠ 0 ∧ ¬labelLength > maxLabelLength ∧
        ∃ labelEnd, skip octets next labelLength.toNat .label = .ok labelEnd ∧
          NameLengthAt octets labelEnd offset := by
  constructor
  · intro hat
    cases hat with
    | here _ => exact .inl rfl
    | later hread hzero hgt hlabel hrest =>
      rw [h] at hread
      cases hread
      exact .inr ⟨hzero, hgt, _, hlabel, hrest⟩
  · rintro (rfl | ⟨hzero, hgt, labelEnd, hlabel, hrest⟩)
    · exact .here h
    · exact .later h hzero hgt hlabel hrest

theorem Name.lengthAt_iff {name : Name} (hspells : octets.Spells cursor name.encode)
    (hadmits : octets.Admits (cursor + name.encode.length)) :
    NameLengthAt octets cursor offset ↔ HoldsLength offset cursor name.pieces := by
  obtain ⟨labels, ending⟩ := name
  induction labels generalizing cursor with
  | nil =>
    cases ending with
    | root =>
      have hread : readU8 octets cursor .labelLength = .ok (0, cursor + 1) :=
        readU8_eq_ok_iff.2 ⟨hspells, rfl, hadmits⟩
      rw [nameLengthAt_iff hread]
      simp [Name.pieces, NameEnd.pieces, Field.isLength]
      omega
    | pointer first second hgt =>
      have hread : readU8 octets cursor .labelLength = .ok (first, cursor + 1) :=
        readU8_eq_ok_iff.2 ⟨hspells.head, rfl, hadmits.mono (by simp [Name.encode, NameEnd.encode])⟩
      rw [nameLengthAt_iff hread]
      simp [Name.pieces, NameEnd.pieces, Field.isLength, hgt]
      omega
  | cons label labels ih =>
    obtain ⟨hzero, hgt, htoNat⟩ := label.ofNat_length
    rw [Name.encode_cons] at hspells hadmits
    simp only [List.length_cons, List.length_append] at hadmits
    have hread : readU8 octets cursor .labelLength =
        .ok (UInt8.ofNat label.text.length, cursor + 1) :=
      readU8_eq_ok_iff.2 ⟨hspells.head, rfl, hadmits.mono (by omega)⟩
    have hlabel : skip octets (cursor + 1) label.text.length .label =
        .ok (cursor + 1 + label.text.length) :=
      skip_eq_ok_iff.2 ⟨rfl, hadmits.mono (by omega)⟩
    rw [Octets.spells_cons, Octets.spells_append] at hspells
    rw [nameLengthAt_iff hread, htoNat, hlabel, Name.pieces_cons, Layout.holdsLength_cons,
      Layout.holdsLength_cons, ← ih hspells.2.2 (hadmits.mono (by omega))]
    simp only [hzero, hgt, Field.isLength, ne_eq, not_false_eq_true, true_and, Except.ok.injEq,
      exists_eq_left', Bool.false_eq_true, false_and, false_or]
    refine or_congr_left ?_
    omega

theorem Record.lengthAt_iff {record : Record} (hspells : octets.Spells start record.encode)
    (hadmits : octets.Admits (start + record.encode.length)) :
    RecordLengthAt octets start offset ↔ HoldsLength offset start record.pieces := by
  obtain ⟨howner, _, _, _, hrdlength, _⟩ := Record.spells_encode_iff.1 hspells
  rw [Record.length_encode, Record.length_encodeHead] at hadmits
  have hownerAdmits : octets.Admits (start + record.owner.encode.length) := hadmits.mono (by omega)
  have hname : NameLengthAt octets start offset ↔ HoldsLength offset start record.owner.pieces :=
    Name.lengthAt_iff howner hownerAdmits
  have hskip := skipName_of_spells howner hownerAdmits
  have hread : readU16 octets (start + record.owner.encode.length + 8) .rdlength =
      .ok (UInt16.ofNat record.rdata.length, start + record.owner.encode.length + 10) :=
    readU16_eq_ok_iff.2 ⟨hrdlength, rfl, hadmits.mono (by omega)⟩
  simp only [Record.pieces, Layout.holdsLength_append, Layout.holdsLength_cons,
    Layout.not_holdsLength_nil, Name.length_pieces, ← hname, Field.isLength, Bool.false_eq_true,
    true_and, false_and, false_or, or_false]
  constructor
  · intro hat
    cases hat with
    | owner hat => exact .inl hat
    | rdlength hname httl hrdlength hle hlt =>
      rw [hskip] at hname
      cases hname
      subst httl
      rw [show start + record.owner.encode.length + typeAndClassLength + ttlLength =
        start + record.owner.encode.length + 8 from rfl, hread] at hrdlength
      cases hrdlength
      exact .inr ⟨hle, hlt⟩
  · rintro (hat | ⟨hle, hlt⟩)
    · exact .owner hat
    · exact .rdlength hskip rfl hread hle hlt

theorem recordEnd_of_spells {record : Record} (hspells : octets.Spells start record.encode)
    (hadmits : octets.Admits (start + record.encode.length)) :
    recordEnd octets start = .ok (start + record.encode.length) := by
  rw [recordEnd, skipRecord_of_spells hspells hadmits]
  rfl

/-- The lengths read in a row of entries are those that each entry holds, if that is so for one. -/
theorem rowLengthAt_iff {α : Type} {lengthAt : Nat → Nat → Prop}
    {pass : Nat → Except Truncation Nat} {encode : α → List UInt8} {pieces : α → List Piece}
    (hlength : ∀ x, Layout.length (pieces x) = (encode x).length)
    (hpass : ∀ x cursor, octets.Spells cursor (encode x) →
      octets.Admits (cursor + (encode x).length) → pass cursor = .ok (cursor + (encode x).length))
    (hentry : ∀ x cursor, octets.Spells cursor (encode x) →
      octets.Admits (cursor + (encode x).length) →
        (lengthAt cursor offset ↔ HoldsLength offset cursor (pieces x)))
    (xs : List α) (hspells : octets.Spells cursor (xs.flatMap encode))
    (hadmits : octets.Admits (cursor + (xs.flatMap encode).length)) :
    RowLengthAt lengthAt pass xs.length cursor offset ↔
      HoldsLength offset cursor (xs.flatMap pieces) := by
  induction xs generalizing cursor with
  | nil =>
    rw [List.flatMap_nil]
    exact ⟨fun hat => (nomatch hat), fun hat => absurd hat Layout.not_holdsLength_nil⟩
  | cons x xs ih =>
    rw [List.flatMap_cons, Octets.spells_append] at hspells
    rw [List.flatMap_cons, List.length_append, ← Nat.add_assoc] at hadmits
    obtain ⟨hfirst, hrest⟩ := hspells
    have hfirstAdmits : octets.Admits (cursor + (encode x).length) := hadmits.mono (by omega)
    have hpassed := hpass x cursor hfirst hfirstAdmits
    rw [List.flatMap_cons, Layout.holdsLength_append, hlength,
      ← hentry x cursor hfirst hfirstAdmits, ← ih hrest hadmits]
    constructor
    · intro hat
      cases hat with
      | first hat => exact .inl hat
      | later hnext hat =>
        rw [hpassed] at hnext
        cases hnext
        exact .inr hat
    · rintro (hat | hat)
      · exact .first hat
      · exact .later hpassed hat

theorem Question.lengthAt_iff {question : Question} (hspells : octets.Spells cursor question.encode)
    (hadmits : octets.Admits (cursor + question.encode.length)) :
    NameLengthAt octets cursor offset ↔ HoldsLength offset cursor question.pieces := by
  rw [Question.length_encode] at hadmits
  rw [Name.lengthAt_iff (Question.spells_encode_iff.1 hspells).1 (hadmits.mono (by omega))]
  simp [Question.pieces, Field.isLength]

/-- In a message the walk reads as lengths what the layout says, and nothing else. -/
theorem Message.lengthAt_iff {message : Message} (hmax : message.recordsEnd ≤ Offset.max) :
    LengthAt message.encode offset ↔
      ∃ place, message.Covers offset place ∧ place.field.isLength = true := by
  obtain ⟨hheader, hquestions, hrecords, hsize⟩ := message.encode_spells
  have hstart := message.recordsStart_eq
  have hend : message.recordsEnd =
      message.recordsStart + (message.records.flatMap Record.encode).length := rfl
  have hadmits : message.encode.Admits message.recordsEnd := ⟨hsize, hmax⟩
  have hstartAdmits : message.encode.Admits message.recordsStart := hadmits.mono (by omega)
  have hcounts : Counts.read message.encode = .ok message.counts :=
    message.read_counts_of_spells hheader (hadmits.mono (by omega))
  have hskipped : skipQuestions message.encode message.counts.qdcount.toNat headerLength =
      .ok message.recordsStart :=
    (skipQuestions_eq_ok_iff (hadmits.mono (by omega))).2
      ⟨message.questions, message.length_questions, hquestions, hstart, hstartAdmits⟩
  have hquestionRow : RowLengthAt (NameLengthAt message.encode) (skipQuestion message.encode)
      message.counts.qdcount.toNat headerLength offset ↔
        HoldsLength offset headerLength (message.questions.flatMap Question.pieces) := by
    rw [← message.length_questions]
    exact rowLengthAt_iff Question.length_pieces
      (fun question _ hs ha => skipQuestion_eq_ok_iff.2 ⟨question, hs, rfl, ha⟩)
      (fun _ _ => Question.lengthAt_iff) _ hquestions (hstart ▸ hstartAdmits)
  have hrecordRow : RowLengthAt (RecordLengthAt message.encode) (recordEnd message.encode)
      message.counts.records message.recordsStart offset ↔
        HoldsLength offset message.recordsStart (message.records.flatMap Record.pieces) := by
    rw [← message.length_records]
    exact rowLengthAt_iff Record.length_pieces (fun _ _ => recordEnd_of_spells)
      (fun _ _ => Record.lengthAt_iff) _ hrecords hadmits
  change _ ↔ HoldsLength offset 0 message.pieces
  rw [pieces, List.cons_append, Layout.holdsLength_cons, Layout.holdsLength_append,
    Layout.length_flatMap Question.length_pieces, Nat.zero_add, ← hstart, ← hquestionRow,
    ← hrecordRow]
  simp only [Field.isLength, Bool.false_eq_true, false_and, false_or]
  constructor
  · intro hat
    cases hat with
    | question hread hat =>
      rw [hcounts] at hread
      cases hread
      exact .inl hat
    | record hread hquestions hat =>
      rw [hcounts] at hread
      cases hread
      rw [hskipped] at hquestions
      cases hquestions
      exact .inr hat
  · rintro (hat | hat)
    · exact .question hcounts hat
    · exact .record hcounts hskipped hat

/-! ## The lengths in what is cut off -/

section Cut

variable {cut : Octets} (hagree : Octets.AgreeBelow cut.size cut octets)

include hagree

theorem admits_of_cut (h : cut.Admits cursor) : octets.Admits cursor :=
  ⟨Nat.le_trans h.1 (hagree.le_size (Nat.le_refl _)), h.2⟩

theorem skip_of_cut {stop : Nat} {field : Field} (h : skip cut cursor length field = .ok stop) :
    skip octets cursor length field = .ok stop := by
  obtain ⟨hstop, hadmits⟩ := skip_eq_ok_iff.1 h
  exact skip_eq_ok_iff.2 ⟨hstop, admits_of_cut hagree hadmits⟩

theorem readU8_of_cut {value : UInt8} {next : Nat} {field : Field}
    (h : readU8 cut cursor field = .ok (value, next)) :
    readU8 octets cursor field = .ok (value, next) := by
  obtain ⟨hspells, hnext, hadmits⟩ := readU8_eq_ok_iff.1 h
  exact readU8_eq_ok_iff.2
    ⟨hagree.spells hspells hadmits.1, hnext, admits_of_cut hagree hadmits⟩

theorem readU16_of_cut {value : UInt16} {next : Nat} {field : Field}
    (h : readU16 cut cursor field = .ok (value, next)) :
    readU16 octets cursor field = .ok (value, next) := by
  obtain ⟨hspells, hnext, hadmits⟩ := readU16_eq_ok_iff.1 h
  exact readU16_eq_ok_iff.2
    ⟨hagree.spells hspells hadmits.1, hnext, admits_of_cut hagree hadmits⟩

theorem readU32_of_cut {value : UInt32} {next : Nat} {field : Field}
    (h : readU32 cut cursor field = .ok (value, next)) :
    readU32 octets cursor field = .ok (value, next) := by
  obtain ⟨hspells, hnext, hadmits⟩ := readU32_eq_ok_iff.1 h
  exact readU32_eq_ok_iff.2
    ⟨hagree.spells hspells hadmits.1, hnext, admits_of_cut hagree hadmits⟩

theorem skipName_of_cut {stop : Nat} (h : skipName cut cursor = .ok stop) :
    skipName octets cursor = .ok stop := by
  obtain ⟨name, hspells, rfl, hadmits⟩ := skipName_eq_ok_iff.1 h
  exact skipName_eq_ok_iff.2
    ⟨name, hagree.spells hspells hadmits.1, rfl, admits_of_cut hagree hadmits⟩

theorem skipQuestion_of_cut {stop : Nat} (h : skipQuestion cut cursor = .ok stop) :
    skipQuestion octets cursor = .ok stop := by
  obtain ⟨question, hspells, rfl, hadmits⟩ := skipQuestion_eq_ok_iff.1 h
  exact skipQuestion_eq_ok_iff.2
    ⟨question, hagree.spells hspells hadmits.1, rfl, admits_of_cut hagree hadmits⟩

theorem skipQuestions_of_cut {stop : Nat} (h : skipQuestions cut count cursor = .ok stop) :
    skipQuestions octets count cursor = .ok stop := by
  induction count generalizing cursor with
  | zero => exact h
  | succ count ih =>
    rw [skipQuestions_succ, bind_eq_ok_iff] at h ⊢
    obtain ⟨next, hfirst, hrest⟩ := h
    exact ⟨next, skipQuestion_of_cut hagree hfirst, ih hrest⟩

theorem recordEnd_of_cut {stop : Nat} (h : recordEnd cut start = .ok stop) :
    recordEnd octets start = .ok stop := by
  obtain ⟨extent, hextent, rfl⟩ := map_eq_ok_iff.1 h
  obtain ⟨record, hspells, rfl, hadmits⟩ := skipRecord_eq_ok_iff.1 hextent
  exact recordEnd_of_spells (hagree.spells hspells hadmits.1) (admits_of_cut hagree hadmits)

theorem Counts.read_of_cut {counts : Counts} (h : Counts.read cut = .ok counts) :
    Counts.read octets = .ok counts := by
  obtain ⟨hadmits, hqdcount, hancount, hnscount, harcount⟩ := Counts.read_eq_ok_iff.1 h
  have hle : ∀ {offset : Nat} {count : UInt16}, offset + 2 ≤ headerLength →
      offset + (Octets.ofU16 count).length ≤ cut.size :=
    fun hoffset => Nat.le_trans hoffset hadmits.1
  exact Counts.read_eq_ok_iff.2 ⟨admits_of_cut hagree hadmits,
    hagree.spells hqdcount (hle (by decide)), hagree.spells hancount (hle (by decide)),
    hagree.spells hnscount (hle (by decide)), hagree.spells harcount (hle (by decide))⟩

/-- What is read as a length in a cut is one in the whole, in which more may be read. -/
theorem NameLengthAt.of_cut (h : NameLengthAt cut cursor offset) :
    NameLengthAt octets cursor offset := by
  induction h with
  | here hread => exact .here (readU8_of_cut hagree hread)
  | later hread hzero hgt hlabel _ ih =>
    exact .later (readU8_of_cut hagree hread) hzero hgt (skip_of_cut hagree hlabel) ih

theorem RecordLengthAt.of_cut (h : RecordLengthAt cut start offset) :
    RecordLengthAt octets start offset := by
  cases h with
  | owner hat => exact .owner (hat.of_cut hagree)
  | rdlength howner httl hread hle hlt =>
    exact .rdlength (skipName_of_cut hagree howner) httl (readU16_of_cut hagree hread) hle hlt

omit hagree in
theorem RowLengthAt.mono {lengthAt lengthAt' : Nat → Nat → Prop}
    {pass pass' : Nat → Except Truncation Nat}
    (hlengthAt : ∀ {cursor}, lengthAt cursor offset → lengthAt' cursor offset)
    (hpass : ∀ {cursor next}, pass cursor = .ok next → pass' cursor = .ok next)
    (h : RowLengthAt lengthAt pass count cursor offset) :
    RowLengthAt lengthAt' pass' count cursor offset := by
  induction h with
  | first hat => exact .first (hlengthAt hat)
  | later hpassed _ ih => exact .later (hpass hpassed) (ih hlengthAt)

theorem LengthAt.of_cut (h : LengthAt cut offset) : LengthAt octets offset := by
  cases h with
  | question hread hat =>
    exact .question (Counts.read_of_cut hagree hread)
      (hat.mono (·.of_cut hagree) (skipQuestion_of_cut hagree))
  | record hread hquestions hat =>
    exact .record (Counts.read_of_cut hagree hread) (skipQuestions_of_cut hagree hquestions)
      (hat.mono (·.of_cut hagree) (recordEnd_of_cut hagree))

end Cut

/-! ## The lengths are behind the header -/

theorem NameLengthAt.le (h : NameLengthAt octets cursor offset) : cursor ≤ offset := by
  induction h with
  | here => exact Nat.le_refl _
  | later hread _ _ hlabel _ ih =>
    obtain ⟨_, rfl, _⟩ := readU8_eq_ok hread
    obtain ⟨rfl, _⟩ := skip_eq_ok hlabel
    omega

theorem RecordLengthAt.le (h : RecordLengthAt octets start offset) : start ≤ offset := by
  cases h with
  | owner hat => exact hat.le
  | rdlength howner httl _ hle _ =>
    obtain ⟨name, _, rfl, _⟩ := skipName_eq_ok_iff.1 howner
    omega

theorem RowLengthAt.le {lengthAt : Nat → Nat → Prop} {pass : Nat → Except Truncation Nat}
    (hlengthAt : ∀ {cursor}, lengthAt cursor offset → cursor ≤ offset)
    (hpass : ∀ {cursor next}, pass cursor = .ok next → cursor ≤ next)
    (h : RowLengthAt lengthAt pass count cursor offset) : cursor ≤ offset := by
  induction h with
  | first hat => exact hlengthAt hat
  | later hpassed _ ih => exact Nat.le_trans (hpass hpassed) (ih hlengthAt)

theorem LengthAt.headerLength_le (h : LengthAt octets offset) : headerLength ≤ offset := by
  cases h with
  | question _ hat =>
    refine hat.le NameLengthAt.le fun hquestion => ?_
    obtain ⟨question, _, rfl, _⟩ := skipQuestion_eq_ok_iff.1 hquestion
    omega
  | record hread hquestions hat =>
    obtain ⟨_, _, _, rfl, _⟩ :=
      (skipQuestions_eq_ok_iff (Counts.read_eq_ok_iff.1 hread).1).1 hquestions
    refine Nat.le_trans (Nat.le_add_right _ _) (hat.le RecordLengthAt.le fun hrecord => ?_)
    obtain ⟨extent, hextent, rfl⟩ := map_eq_ok_iff.1 hrecord
    obtain ⟨record, _, rfl, _⟩ := skipRecord_eq_ok_iff.1 hextent
    exact Nat.le_add_right _ _

end DnsMatch.Wire
