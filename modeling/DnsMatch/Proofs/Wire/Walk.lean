import DnsMatch.Proofs.Wire.Name
import DnsMatch.Wire.Walk

/-! # The walk passes what is written

The log has no say in what the walk gives, so first the walk is put as a chain
of plain computations (`walk_eq`), with `passRecords` for its loop over the
records. Each part of it then succeeds exactly where the octets of a `Question`,
of a `Record` or of a row of them are spelled, and ends behind them. -/

namespace DnsMatch.Wire

variable {octets : Octets} {cursor start stop count : Nat}

/-! ## The parts of the walk -/

/-- Passes so many records and gives their TTL offsets and the end of the last one. -/
def passRecords (octets : Octets) : Nat → Nat → Except Truncation (List Nat × Nat)
  | 0, cursor => .ok ([], cursor)
  | count + 1, cursor => do
    let extent ← (skipRecord octets cursor).result
    let (ttlOffsets, stop) ← passRecords octets count extent.stop
    return (extent.ttlOffset :: ttlOffsets, stop)

theorem result_skipRecords (ttlOffsets : Array Nat) (entries : Array Log.Entry) :
    (skipRecords octets count cursor ttlOffsets entries).result =
      (passRecords octets count cursor).map fun (passed, stop) =>
        (ttlOffsets ++ passed.toArray, stop) := by
  induction count generalizing cursor ttlOffsets entries with
  | zero => simp [skipRecords, passRecords, Except.map]
  | succ count ih =>
    simp only [skipRecords, passRecords]
    cases hrecord : (skipRecord octets cursor).result with
    | error truncation => rfl
    | ok extent =>
      simp only [ih, bind, Except.bind]
      cases passRecords octets count extent.stop with
      | error truncation => rfl
      | ok passed => simp [Except.map, pure, Except.pure]

theorem result_skipRecordTtl (octets : Octets) (start ttlOffset : Nat) :
    (skipRecordTtl octets start ttlOffset).result =
      (readU32 octets ttlOffset .ttl >>= fun (_, ttlEnd) =>
        skipRecordData octets ttlOffset ttlEnd) := by
  simp only [skipRecordTtl, Logged.result_bind, Logged.result_lift, Logged.result_write]
  rfl

theorem result_skipRecordFields (octets : Octets) (start ownerEnd : Nat) :
    (skipRecordFields octets start ownerEnd).result = (do
      let _ ← readU16 octets ownerEnd .recordFields
      let ttlOffset ← skip octets ownerEnd typeAndClassLength .recordFields
      (skipRecordTtl octets start ttlOffset).result) := by
  simp only [skipRecordFields, Logged.result_bind, Logged.result_lift]
  congr 1
  funext type
  congr 1
  funext ttlOffset
  split
  · rw [Logged.result_bind]
    rfl
  · rfl

theorem result_skipRecord (octets : Octets) (start : Nat) :
    (skipRecord octets start).result =
      (skipName octets start >>= fun ownerEnd =>
        (skipRecordFields octets start ownerEnd).result) := by
  rw [skipRecord, Logged.result_bind]
  rfl

/-- All reads that make up a record, in their order. -/
theorem result_skipRecord_eq_reads (octets : Octets) (start : Nat) :
    (skipRecord octets start).result = (do
      let ownerEnd ← skipName octets start
      let _ ← readU16 octets ownerEnd .recordFields
      let ttlOffset ← skip octets ownerEnd typeAndClassLength .recordFields
      let (_, ttlEnd) ← readU32 octets ttlOffset .ttl
      let (rdlength, rdataStart) ← readU16 octets ttlEnd .rdlength
      let stop ← skip octets rdataStart rdlength.toNat .rdata
      return { ttlOffset, stop }) := by
  simp only [result_skipRecord, result_skipRecordFields, result_skipRecordTtl, skipRecordData]

/-- Of TYPE and of the TTL a record's end depends only on their being there. -/
theorem result_skipRecordFields_eq_skips (octets : Octets) (start ownerEnd : Nat) :
    (skipRecordFields octets start ownerEnd).result = (do
      let ttlOffset ← skip octets ownerEnd typeAndClassLength .recordFields
      let ttlEnd ← skip octets ttlOffset ttlLength .ttl
      skipRecordData octets ttlOffset ttlEnd) := by
  rw [result_skipRecordFields, readU16, map_bind, skip_bind_skip (by decide)]
  congr 1
  funext ttlOffset
  rw [result_skipRecordTtl, readU32, map_bind]
  rfl

theorem walk_eq (octets : Octets) :
    walk octets = (do
      let counts ← Counts.read octets
      let recordsStart ← skipQuestions octets counts.qdcount.toNat headerLength
      let (ttlOffsets, _) ← passRecords octets counts.records recordsStart
      return ttlOffsets) := by
  simp only [walk, walkLogged, Logged.result_bind, Logged.result_lift, Logged.result_write,
    result_skipRecords]
  congr 1
  funext counts
  show (skipQuestions octets counts.qdcount.toNat headerLength >>= _) = _
  congr 1
  funext recordsStart
  cases passRecords octets counts.records recordsStart with
  | error truncation => rfl
  | ok passed =>
    simp only [bind, Except.bind, Except.map]
    split
    · simp [pure, Except.pure, Logged.ofExcept, Logged.andThen, Logged.write]
    · simp [pure, Except.pure, Logged.ofExcept]

/-! ## Questions -/

theorem Question.length_encode (question : Question) :
    question.encode.length = question.name.encode.length + 4 := by
  simp [Question.encode]

theorem Question.spells_encode_iff {question : Question} :
    octets.Spells cursor question.encode ↔
      octets.Spells cursor question.name.encode ∧
      octets.Spells (cursor + question.name.encode.length) (Octets.ofU16 question.qtype) ∧
      octets.Spells (cursor + question.name.encode.length + 2) (Octets.ofU16 question.qclass) := by
  simp only [Question.encode, Octets.spells_append, List.length_append, Octets.length_ofU16,
    Nat.add_assoc, and_assoc]

theorem skipQuestion_eq_ok_iff :
    skipQuestion octets cursor = .ok stop ↔
      ∃ question : Question, octets.Spells cursor question.encode ∧
        stop = cursor + question.encode.length ∧ octets.Admits stop := by
  unfold skipQuestion typeAndClassLength
  rw [bind_eq_ok_iff]
  constructor
  · intro ⟨nameEnd, hname, hfields⟩
    obtain ⟨name, hspells, rfl, _⟩ := skipName_eq_ok_iff.1 hname
    obtain ⟨rfl, hadmits⟩ := skip_eq_ok_iff.1 hfields
    have hsize := hadmits.1
    have hqtype : octets.Spells (cursor + name.encode.length) (Octets.ofU16 (octets.u16At _)) :=
      Octets.spells_u16At (by omega)
    have hqclass : octets.Spells (cursor + name.encode.length + 2)
        (Octets.ofU16 (octets.u16At _)) := Octets.spells_u16At (by omega)
    refine ⟨⟨name, _, _⟩, Question.spells_encode_iff.2 ⟨hspells, hqtype, hqclass⟩, ?_, hadmits⟩
    simp only [Question.length_encode]
    omega
  · intro ⟨question, hspells, hstop, hadmits⟩
    rw [Question.length_encode] at hstop
    subst hstop
    refine ⟨_, skipName_eq_ok_iff.2 ⟨question.name, ?_, rfl, hadmits.mono (by omega)⟩, ?_⟩
    · exact (Question.spells_encode_iff.1 hspells).1
    · exact skip_eq_ok_iff.2 ⟨by omega, hadmits.mono (by omega)⟩

theorem skipQuestions_succ (octets : Octets) (count cursor : Nat) :
    skipQuestions octets (count + 1) cursor =
      (skipQuestion octets cursor >>= skipQuestions octets count) := by
  rw [skipQuestions]
  cases skipQuestion octets cursor <;> rfl

theorem skipQuestions_eq_ok_iff (h : octets.Admits cursor) :
    skipQuestions octets count cursor = .ok stop ↔
      ∃ questions : List Question, questions.length = count ∧
        octets.Spells cursor (questions.flatMap Question.encode) ∧
        stop = cursor + (questions.flatMap Question.encode).length ∧ octets.Admits stop := by
  induction count generalizing cursor with
  | zero =>
    simp only [skipQuestions, Except.ok.injEq, List.length_eq_zero_iff]
    constructor
    · intro hstop
      subst hstop
      exact ⟨[], rfl, by simp, by simp, h⟩
    · intro ⟨questions, hnil, _, hstop, _⟩
      subst hnil
      simpa using hstop.symm
  | succ count ih =>
    rw [skipQuestions_succ, bind_eq_ok_iff]
    constructor
    · intro ⟨next, hfirst, hrest⟩
      obtain ⟨question, hspells, rfl, hadmits⟩ := skipQuestion_eq_ok_iff.1 hfirst
      obtain ⟨questions, rfl, hspellsRest, rfl, hadmitsStop⟩ := (ih hadmits).1 hrest
      refine ⟨question :: questions, rfl, ?_, ?_, hadmitsStop⟩
      · simpa using ⟨hspells, hspellsRest⟩
      · simp [Nat.add_assoc]
    · intro ⟨questions, hlength, hspells, hstop, hadmits⟩
      cases questions with
      | nil => simp at hlength
      | cons question questions =>
        simp only [List.flatMap_cons, Octets.spells_append, List.length_append,
          ← Nat.add_assoc] at hspells hstop
        have hnext : octets.Admits (cursor + question.encode.length) :=
          hadmits.mono (by omega)
        refine ⟨_, skipQuestion_eq_ok_iff.2 ⟨question, hspells.1, rfl, hnext⟩, ?_⟩
        exact (ih hnext).2 ⟨questions, by simpa using hlength, hspells.2, hstop, hadmits⟩

/-! ## Records -/

namespace Record

theorem length_encodeHead (record : Record) :
    record.encodeHead.length = record.owner.encode.length + 4 := by
  simp [encodeHead]

theorem length_encode (record : Record) :
    record.encode.length = record.encodeHead.length + 6 + record.rdata.length := by
  simp [encode, encodeTail]
  omega

/-- The length of the data fits into its field. -/
theorem toNat_rdlength (record : Record) :
    (UInt16.ofNat record.rdata.length).toNat = record.rdata.length := by
  have := record.rdata_lt
  rw [UInt16.toNat_ofNat']
  omega

theorem spells_encode_iff {record : Record} :
    octets.Spells cursor record.encode ↔
      octets.Spells cursor record.owner.encode ∧
      octets.Spells (cursor + record.owner.encode.length) (Octets.ofU16 record.rrtype) ∧
      octets.Spells (cursor + record.owner.encode.length + 2) (Octets.ofU16 record.rrclass) ∧
      octets.Spells (cursor + record.owner.encode.length + 4) (Octets.ofU32 record.ttl) ∧
      octets.Spells (cursor + record.owner.encode.length + 8)
        (Octets.ofU16 (UInt16.ofNat record.rdata.length)) ∧
      octets.Spells (cursor + record.owner.encode.length + 10) record.rdata := by
  simp only [encode, encodeHead, encodeTail, Octets.spells_append, List.length_append,
    Octets.length_ofU16, Octets.length_ofU32, Nat.add_assoc, Nat.reduceAdd, and_assoc]

end Record

theorem exists_record_of_skipRecord {extent : RecordExtent}
    (h : (skipRecord octets start).result = .ok extent) :
    ∃ record : Record, octets.Spells start record.encode ∧
      extent = ⟨start + record.encodeHead.length, start + record.encode.length⟩ ∧
      octets.Admits extent.stop := by
  rw [result_skipRecord_eq_reads] at h
  simp only [bind_eq_ok_iff] at h
  obtain ⟨ownerEnd, howner, ⟨type, typeEnd⟩, htype, ttlOffset, hfields, ⟨ttl, ttlEnd⟩, httl,
    ⟨rdlength, rdataStart⟩, hrdlength, stop, hrdata, hextent⟩ := h
  obtain ⟨owner, hownerSpells, rfl, _⟩ := skipName_eq_ok_iff.1 howner
  obtain ⟨htypeSpells, rfl, _⟩ := readU16_eq_ok_iff.1 htype
  obtain ⟨rfl, hfieldsAdmits⟩ := skip_eq_ok_iff.1 hfields
  obtain ⟨httlSpells, rfl, _⟩ := readU32_eq_ok_iff.1 httl
  obtain ⟨hrdlengthSpells, rfl, _⟩ := readU16_eq_ok_iff.1 hrdlength
  obtain ⟨rfl, hadmits⟩ := skip_eq_ok_iff.1 hrdata
  obtain ⟨rdata, hrdataLength, hrdataSpells⟩ := Octets.exists_spells hadmits.1
  simp only [typeAndClassLength] at hfieldsAdmits httlSpells hrdlengthSpells hrdataSpells hextent
  have hfieldsSize := hfieldsAdmits.1
  -- the class is the one field that the walk does not read
  have hclassSpells : octets.Spells (start + owner.encode.length + 2)
      (Octets.ofU16 (octets.u16At _)) := Octets.spells_u16At (by omega)
  cases hextent
  refine ⟨⟨owner, type, _, ttl, rdata, hrdataLength ▸ rdlength.toNat_lt⟩,
    Record.spells_encode_iff.2 ⟨hownerSpells, htypeSpells, hclassSpells, httlSpells, ?_, ?_⟩,
    ?_, hadmits⟩
  · simpa [hrdataLength, Nat.add_assoc] using hrdlengthSpells
  · simpa [Nat.add_assoc] using hrdataSpells
  · simp only [Record.length_encode, Record.length_encodeHead, hrdataLength]
    congr 1
    omega

/-- Every field of a record that is written down is read. -/
theorem Record.reads_of_spells {record : Record} {ownerEnd : Nat}
    (h : octets.Spells start record.encode)
    (hadmits : octets.Admits (start + record.encode.length))
    (hownerEnd : start + record.owner.encode.length = ownerEnd) :
    skipName octets start = .ok ownerEnd ∧
      readU16 octets ownerEnd .recordFields = .ok (record.rrtype, ownerEnd + 2) ∧
      skip octets ownerEnd typeAndClassLength .recordFields = .ok (ownerEnd + 4) ∧
      readU32 octets (ownerEnd + 4) .ttl = .ok (record.ttl, ownerEnd + 8) ∧
      readU16 octets (ownerEnd + 8) .rdlength =
        .ok (UInt16.ofNat record.rdata.length, ownerEnd + 10) ∧
      skip octets (ownerEnd + 10) (UInt16.ofNat record.rdata.length).toNat .rdata =
        .ok (ownerEnd + 10 + record.rdata.length) := by
  obtain ⟨howner, htype, _, httl, hrdlength, _⟩ := Record.spells_encode_iff.1 h
  rw [Record.length_encode, Record.length_encodeHead] at hadmits
  rw [hownerEnd] at htype httl hrdlength
  refine ⟨?_, ?_, ?_, ?_, ?_, ?_⟩
  · exact skipName_eq_ok_iff.2 ⟨record.owner, howner, hownerEnd.symm, hadmits.mono (by omega)⟩
  · exact readU16_eq_ok_iff.2 ⟨htype, rfl, hadmits.mono (by omega)⟩
  · exact skip_eq_ok_iff.2 ⟨rfl, hadmits.mono (by simp only [typeAndClassLength]; omega)⟩
  · exact readU32_eq_ok_iff.2 ⟨httl, rfl, hadmits.mono (by omega)⟩
  · exact readU16_eq_ok_iff.2 ⟨hrdlength, rfl, hadmits.mono (by omega)⟩
  · rw [record.toNat_rdlength]
    exact skip_eq_ok_iff.2 ⟨rfl, hadmits.mono (by omega)⟩

theorem skipRecord_of_spells {record : Record} (h : octets.Spells start record.encode)
    (hadmits : octets.Admits (start + record.encode.length)) :
    (skipRecord octets start).result =
      .ok ⟨start + record.encodeHead.length, start + record.encode.length⟩ := by
  obtain ⟨howner, htype, hfields, httl, hrdlength, hrdata⟩ := Record.reads_of_spells h hadmits rfl
  rw [result_skipRecord_eq_reads]
  simp only [bind_eq_ok_iff]
  refine ⟨_, howner, _, htype, _, hfields, _, httl, _, hrdlength, _, hrdata, ?_⟩
  simp only [pure, Except.pure, Except.ok.injEq, RecordExtent.mk.injEq, Record.length_encode,
    Record.length_encodeHead]
  omega

theorem skipRecord_eq_ok_iff {extent : RecordExtent} :
    (skipRecord octets start).result = .ok extent ↔
      ∃ record : Record, octets.Spells start record.encode ∧
        extent = ⟨start + record.encodeHead.length, start + record.encode.length⟩ ∧
        octets.Admits extent.stop := by
  constructor
  · exact exists_record_of_skipRecord
  · intro ⟨record, hspells, hextent, hadmits⟩
    subst hextent
    exact skipRecord_of_spells hspells hadmits

theorem passRecords_eq_ok_iff {ttlOffsets : List Nat} (h : octets.Admits cursor) :
    passRecords octets count cursor = .ok (ttlOffsets, stop) ↔
      ∃ records : List Record, records.length = count ∧
        octets.Spells cursor (records.flatMap Record.encode) ∧
        ttlOffsets = Record.ttlOffsetsFrom cursor records ∧
        stop = cursor + (records.flatMap Record.encode).length ∧ octets.Admits stop := by
  induction count generalizing cursor ttlOffsets with
  | zero =>
    simp only [passRecords, Except.ok.injEq, Prod.mk.injEq, List.length_eq_zero_iff]
    constructor
    · intro ⟨hoffsets, hstop⟩
      subst hoffsets hstop
      exact ⟨[], rfl, by simp, rfl, by simp, h⟩
    · intro ⟨records, hnil, _, hoffsets, hstop, _⟩
      subst hnil hoffsets
      exact ⟨rfl, by simpa using hstop.symm⟩
  | succ count ih =>
    simp only [passRecords, bind_eq_ok_iff]
    constructor
    · intro ⟨extent, hfirst, ⟨offsets, stop'⟩, hrest, hpassed⟩
      obtain ⟨record, hspells, rfl, hadmits⟩ := skipRecord_eq_ok_iff.1 hfirst
      cases hpassed
      obtain ⟨records, rfl, hspellsRest, rfl, rfl, hadmitsStop⟩ := (ih hadmits).1 hrest
      refine ⟨record :: records, rfl, ?_, rfl, ?_, hadmitsStop⟩
      · simpa using ⟨hspells, hspellsRest⟩
      · simp [Nat.add_assoc]
    · intro ⟨records, hlength, hspells, hoffsets, hstop, hadmits⟩
      cases records with
      | nil => simp at hlength
      | cons record records =>
        simp only [List.flatMap_cons, Octets.spells_append, List.length_append,
          ← Nat.add_assoc] at hspells hstop
        have hnext : octets.Admits (cursor + record.encode.length) := hadmits.mono (by omega)
        refine ⟨_, skipRecord_eq_ok_iff.2 ⟨record, hspells.1, rfl, hnext⟩, _,
          (ih hnext).2 ⟨records, by simpa using hlength, hspells.2, rfl, hstop, hadmits⟩, ?_⟩
        rw [hoffsets]
        rfl

end DnsMatch.Wire
