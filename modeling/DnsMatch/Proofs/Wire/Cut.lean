import DnsMatch.Proofs.Wire.Layout

/-! # Messages that are cut off

A message that is cut off before the end of its last record is not walked, and
the walk says which field the cut is in: the one that has the first octet that
is missing. Behind the last record a cut does no harm. -/

namespace DnsMatch

namespace Wire

open Octets (AgreeBelow)

variable {octets cut : Octets} {cursor length start : Nat}

/-! ## Failing in a row of fields -/

/-- Whether reading a row of fields from `start` on fails in the field that lacks the octet at the
end of the string. -/
def FailsInside {α : Type} (cut : Octets) (start : Nat) (pieces : List Piece)
    (result : Except Truncation α) : Prop :=
  ∃ truncation, result = .error truncation ∧ Layout.Covers cut.size truncation start pieces

namespace FailsInside

variable {α β : Type} {pieces rest : List Piece} {result : Except Truncation α} {field : Field}

theorem head {width : Nat} (hstart : start ≤ cut.size) (hcut : cut.size < start + width) :
    FailsInside cut start ((field, width) :: pieces)
      (.error ⟨field, start⟩ : Except Truncation α) :=
  ⟨_, rfl, .inl ⟨rfl, hstart, hcut⟩⟩

theorem cons {piece : Piece} (h : FailsInside cut (start + piece.2) pieces result) :
    FailsInside cut start (piece :: pieces) result := by
  obtain ⟨truncation, hresult, hcovers⟩ := h
  exact ⟨truncation, hresult, .inr hcovers⟩

theorem append_left (h : FailsInside cut start pieces result) :
    FailsInside cut start (pieces ++ rest) result := by
  obtain ⟨truncation, hresult, hcovers⟩ := h
  exact ⟨truncation, hresult, Layout.covers_append.2 (.inl hcovers)⟩

theorem append_right (h : FailsInside cut (start + Layout.length pieces) rest result) :
    FailsInside cut start (pieces ++ rest) result := by
  obtain ⟨truncation, hresult, hcovers⟩ := h
  exact ⟨truncation, hresult, Layout.covers_append.2 (.inr hcovers)⟩

/-- What is read after a failure has no say. -/
theorem bind {next : α → Except Truncation β} (h : FailsInside cut start pieces result) :
    FailsInside cut start pieces (result >>= next) := by
  obtain ⟨truncation, rfl, hcovers⟩ := h
  exact ⟨truncation, rfl, hcovers⟩

/-- One read of a row: the string ends in its field, or the reading goes on behind it. -/
theorem step {width : Nat} {next : α → Except Truncation β} (hstart : start ≤ cut.size)
    (hcut : cut.size < start + width → result = .error ⟨field, start⟩)
    (hrest : start + width ≤ cut.size →
      FailsInside cut (start + width) rest (result >>= next)) :
    FailsInside cut start ((field, width) :: rest) (result >>= next) := by
  by_cases hlt : cut.size < start + width
  · rw [hcut hlt]
    exact .head hstart hlt
  · exact .cons (hrest (by omega))

end FailsInside

/-! ## Names -/

theorem skipName_cut {name : Name} (hagree : AgreeBelow cut.size octets cut)
    (hmax : cut.size ≤ Offset.max) (hspells : octets.Spells cursor name.encode)
    (hcursor : cursor ≤ cut.size) (hcut : cut.size < cursor + name.encode.length) :
    FailsInside cut cursor name.pieces (skipName cut cursor) := by
  obtain ⟨labels, ending⟩ := name
  induction labels generalizing cursor with
  | nil =>
    rw [skipName_eq]
    cases ending with
    | root =>
      have hsize : cut.size < cursor + 1 := hcut
      exact .step hcursor readU8_cut fun hle => by omega
    | pointer first second hgt =>
      have hsize : cut.size < cursor + 1 + 1 := hcut
      refine .step hcursor readU8_cut fun hle => ?_
      have hread : readU8 cut cursor .labelLength = .ok (first, cursor + 1) :=
        readU8_eq_ok_iff.2 ⟨hagree.spells hspells.head hle, rfl, hle, by omega⟩
      rw [← skipName_eq, skipName_of_pointer hread hgt, skip_cut hsize]
      exact .head hle hsize
  | cons label labels ih =>
    rw [Name.encode_cons] at hspells hcut
    rw [List.length_cons, List.length_append] at hcut
    rw [Name.pieces_cons, skipName_eq]
    refine .step hcursor readU8_cut fun hle => ?_
    have hread : readU8 cut cursor .labelLength =
        .ok (UInt8.ofNat label.text.length, cursor + 1) :=
      readU8_eq_ok_iff.2 ⟨hagree.spells hspells.head hle, rfl, hle, by omega⟩
    rw [Octets.spells_cons, Octets.spells_append] at hspells
    rw [← skipName_eq, skipName_of_label hread]
    refine .step hle skip_cut fun hle' => ?_
    rw [skip_eq_ok_iff.2 ⟨rfl, hle', by omega⟩, ok_bind]
    exact ih hle' hspells.2.2 (by omega)

/-! ## Questions and records -/

theorem skipQuestion_cut {question : Question} (hagree : AgreeBelow cut.size octets cut)
    (hmax : cut.size ≤ Offset.max) (hspells : octets.Spells cursor question.encode)
    (hcursor : cursor ≤ cut.size) (hcut : cut.size < cursor + question.encode.length) :
    FailsInside cut cursor question.pieces (skipQuestion cut cursor) := by
  obtain ⟨hname, _, _⟩ := Question.spells_encode_iff.1 hspells
  rw [Question.length_encode] at hcut
  unfold skipQuestion Question.pieces
  by_cases hnameCut : cut.size < cursor + question.name.encode.length
  · exact (skipName_cut hagree hmax hname hcursor hnameCut).bind.append_left
  · rw [skipName_of_spells (hagree.spells hname (by omega)) ⟨by omega, by omega⟩, ok_bind,
      skip_cut (by simp only [typeAndClassLength]; omega)]
    refine .append_right ?_
    rw [Name.length_pieces]
    exact .head (by omega) (by omega)

theorem skipQuestions_cut {questions : List Question} (hagree : AgreeBelow cut.size octets cut)
    (hmax : cut.size ≤ Offset.max)
    (hspells : octets.Spells cursor (questions.flatMap Question.encode))
    (hcursor : cursor ≤ cut.size)
    (hcut : cut.size < cursor + (questions.flatMap Question.encode).length) :
    FailsInside cut cursor (questions.flatMap Question.pieces)
      (skipQuestions cut questions.length cursor) := by
  induction questions generalizing cursor with
  | nil =>
    rw [List.flatMap_nil, List.length_nil] at hcut
    omega
  | cons question questions ih =>
    rw [List.flatMap_cons, Octets.spells_append] at hspells
    rw [List.flatMap_cons, List.length_append] at hcut
    rw [List.flatMap_cons, List.length_cons, skipQuestions_succ]
    by_cases hfirst : cut.size < cursor + question.encode.length
    · exact (skipQuestion_cut hagree hmax hspells.1 hcursor hfirst).bind.append_left
    · rw [skipQuestion_eq_ok_iff.2
        ⟨question, hagree.spells hspells.1 (by omega), rfl, by omega, by omega⟩]
      refine .append_right ?_
      rw [Question.length_pieces]
      exact ih hspells.2 (by omega) (by omega)

theorem skipRecord_cut {record : Record} (hagree : AgreeBelow cut.size octets cut)
    (hmax : cut.size ≤ Offset.max) (hspells : octets.Spells start record.encode)
    (hstart : start ≤ cut.size) (hcut : cut.size < start + record.encode.length) :
    FailsInside cut start record.pieces (skipRecord cut start).result := by
  obtain ⟨howner, htype, _, httl, hrdlength, _⟩ := Record.spells_encode_iff.1 hspells
  rw [Record.length_encode, Record.length_encodeHead] at hcut
  rw [result_skipRecord_eq_reads]
  unfold Record.pieces typeAndClassLength
  by_cases hownerCut : cut.size < start + record.owner.encode.length
  · exact (skipName_cut hagree hmax howner hstart hownerCut).bind.append_left
  rw [skipName_of_spells (hagree.spells howner (by omega)) ⟨by omega, by omega⟩, ok_bind]
  refine .append_right ?_
  rw [Name.length_pieces]
  generalize hownerEnd : start + record.owner.encode.length = ownerEnd at *
  -- TYPE is read and then passed over together with CLASS, and both reads blame the same field
  by_cases htypeCut : cut.size < ownerEnd + 2
  · rw [readU16_cut htypeCut]
    exact .head (by omega) (by omega)
  rw [readU16_eq_ok_iff.2 ⟨hagree.spells htype (by simp; omega), rfl, by omega, by omega⟩, ok_bind]
  refine .step (by omega) skip_cut fun hfields => ?_
  rw [skip_eq_ok_iff.2 ⟨rfl, hfields, by omega⟩, ok_bind]
  refine .step hfields readU32_cut fun httlEnd => ?_
  rw [readU32_eq_ok_iff.2 ⟨hagree.spells httl (by simp; omega), rfl, httlEnd, by omega⟩, ok_bind]
  refine .step httlEnd readU16_cut fun hrdataStart => ?_
  rw [readU16_eq_ok_iff.2 ⟨hagree.spells hrdlength (by simp; omega), rfl, hrdataStart, by omega⟩,
    ok_bind]
  simp only [record.toNat_rdlength]
  exact .step hrdataStart skip_cut fun hrdata => by omega

theorem passRecords_cut {records : List Record} (hagree : AgreeBelow cut.size octets cut)
    (hmax : cut.size ≤ Offset.max) (hspells : octets.Spells start (records.flatMap Record.encode))
    (hstart : start ≤ cut.size)
    (hcut : cut.size < start + (records.flatMap Record.encode).length) :
    FailsInside cut start (records.flatMap Record.pieces)
      (passRecords cut records.length start) := by
  induction records generalizing start with
  | nil =>
    rw [List.flatMap_nil, List.length_nil] at hcut
    omega
  | cons record records ih =>
    rw [List.flatMap_cons, Octets.spells_append] at hspells
    rw [List.flatMap_cons, List.length_append] at hcut
    rw [List.flatMap_cons, List.length_cons, passRecords]
    by_cases hfirst : cut.size < start + record.encode.length
    · exact (skipRecord_cut hagree hmax hspells.1 hstart hfirst).bind.append_left
    · rw [skipRecord_of_spells (hagree.spells hspells.1 (by omega)) ⟨by omega, by omega⟩, ok_bind]
      refine .append_right ?_
      rw [Record.length_pieces]
      exact (ih hspells.2 (by omega) (by omega)).bind

/-! ## The whole walk -/

namespace Message

variable {message : Message}

/-- Up to the end of its last record, a message that is cut off fails in the field of the cut. -/
theorem walk_cut (hmax : message.recordsEnd ≤ Offset.max)
    (hagree : AgreeBelow cut.size message.encode cut) (hcut : cut.size < message.recordsEnd) :
    FailsInside cut 0 message.pieces (walk cut) := by
  obtain ⟨hheader, hquestions, hrecords, _⟩ := message.encode_spells
  have hheaderLength := message.length_encodeHeader
  have hstart := message.recordsStart_eq
  have hend : message.recordsEnd =
      message.recordsStart + (message.records.flatMap Record.encode).length := rfl
  rw [walk_eq, pieces, List.cons_append]
  by_cases hheaderCut : cut.size < headerLength
  · rw [Counts.read, skip_cut (by omega), error_bind, error_bind]
    exact .head (Nat.zero_le _) (by omega)
  rw [message.read_counts_of_spells (hagree.spells hheader (by omega)) ⟨by omega, by omega⟩,
    ok_bind, ← message.length_questions, ← message.length_records]
  refine .cons ?_
  rw [Nat.zero_add]
  by_cases hquestionsCut : cut.size < message.recordsStart
  · exact (skipQuestions_cut hagree (by omega) hquestions (by omega) (by omega)).bind.append_left
  rw [(skipQuestions_eq_ok_iff ⟨by omega, by omega⟩).2 ⟨message.questions, rfl,
    hagree.spells hquestions (by omega), hstart, by omega, by omega⟩, ok_bind]
  refine .append_right ?_
  rw [Layout.length_flatMap Question.length_pieces, ← hstart]
  exact (passRecords_cut hagree (by omega) hrecords (by omega) (by omega)).bind

/-- The walk of a cut blames a field that is known from the structure alone. -/
theorem walk_extract {stop : Nat} {truncation : Truncation}
    (hmax : message.recordsEnd ≤ Offset.max) (hcovers : message.Covers stop truncation)
    (hstop : stop < message.recordsEnd) :
    walk (message.encode.extract 0 stop) = .error truncation := by
  obtain ⟨_, _, _, hsize⟩ := message.encode_spells
  have hcutSize : (message.encode.extract 0 stop).size = stop := by
    rw [Array.size_extract]
    omega
  have hfails : FailsInside (message.encode.extract 0 stop) 0 message.pieces
      (walk (message.encode.extract 0 stop)) := by
    refine walk_cut hmax ?_ (by omega)
    rw [hcutSize]
    exact Octets.agreeBelow_extract _ _
  obtain ⟨truncation', hwalk, hcovers'⟩ := hfails
  rw [hcutSize] at hcovers'
  rw [hwalk, hcovers'.unique hcovers]

end Message

/-- **Every cut is caught and blamed on the field it is in.** A message that is walked has an end of
its last record. What has the same octets up to there is walked alike. What is cut off before is not
walked, and the walk names the one field that has the first missing octet. -/
theorem walk_blames_field_of_cut {ttlOffsets : List Nat} (h : walk octets = .ok ttlOffsets) :
    ∃ message : Message, message.encode = octets ∧
      12 ≤ message.recordsEnd ∧ message.recordsEnd ≤ octets.size ∧
      Layout.length message.pieces = message.recordsEnd ∧
      (∀ other : Octets,
        other.extract 0 message.recordsEnd = octets.extract 0 message.recordsEnd →
          walk other = .ok ttlOffsets) ∧
      ∀ stop, stop < message.recordsEnd →
        ∃ truncation, walk (octets.extract 0 stop) = .error truncation ∧
          ∀ place, message.Covers stop place ↔ place = truncation := by
  obtain ⟨message, rfl, rfl, hmax⟩ := walk_eq_ok_iff.1 h
  obtain ⟨_, _, _, hsize⟩ := message.encode_spells
  refine ⟨message, rfl, ?_, hsize, message.length_pieces, ?_, ?_⟩
  · rw [Message.recordsEnd, message.recordsStart_eq, headerLength]
    omega
  · intro other hother
    exact walk_of_agreeBelow message hmax (Octets.agreeBelow_of_extract_eq hother.symm)
  · intro stop hstop
    have hcutSize : (message.encode.extract 0 stop).size = stop := by
      rw [Array.size_extract]
      omega
    have hagree : AgreeBelow (message.encode.extract 0 stop).size message.encode
        (message.encode.extract 0 stop) := by
      rw [hcutSize]
      exact Octets.agreeBelow_extract _ _
    obtain ⟨truncation, hwalk, hcovers⟩ := Message.walk_cut hmax hagree (by omega)
    rw [hcutSize] at hcovers
    exact ⟨truncation, hwalk, fun place =>
      ⟨fun hplace => hcovers.unique hplace, fun hplace => hplace ▸ hcovers⟩⟩

/-- The sample cut off in the middle of the RDLENGTH of its first record. -/
theorem walk_blames_field_of_cut_sample :
    walk Message.sample.encode = .ok [25, 40] ∧
      walk (Message.sample.encode.extract 0 30) = .error ⟨.rdlength, 29⟩ := by
  obtain ⟨message, hencode, _, _, _, _, hcut⟩ := walk_blames_field_of_cut walk_sample
  obtain rfl := Message.encode_injective hencode
  obtain ⟨truncation, hwalk, hcovers⟩ := hcut 30 (by decide)
  rw [(hcovers ⟨.rdlength, 29⟩).1 (by decide)]
  exact ⟨walk_sample, hwalk⟩

end Wire

end DnsMatch
