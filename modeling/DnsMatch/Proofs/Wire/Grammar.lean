import DnsMatch.Proofs.Wire.Delimited
import DnsMatch.Proofs.Wire.Walk

/-! # The walk accepts the messages, and nothing else

`walk_eq_ok_iff` says what the walk accepts: the octets of a message whose
records end at an offset, with the offsets of the message's TTLs. Since no two
messages are written alike, an accepted string has one structure only. -/

namespace DnsMatch.Wire

variable {octets : Octets} {ttlOffsets : List Nat}

/-! ## The header -/

theorem Counts.read_eq_ok_iff {counts : Counts} :
    Counts.read octets = .ok counts ↔
      octets.Admits headerLength ∧
      octets.Spells 4 (Octets.ofU16 counts.qdcount) ∧
      octets.Spells 6 (Octets.ofU16 counts.ancount) ∧
      octets.Spells 8 (Octets.ofU16 counts.nscount) ∧
      octets.Spells 10 (Octets.ofU16 counts.arcount) := by
  simp only [Counts.read, bind_eq_ok_iff]
  constructor
  · intro ⟨stop, hheader, ⟨qdcount, _⟩, hqdcount, ⟨ancount, _⟩, hancount, ⟨nscount, _⟩, hnscount,
      ⟨arcount, _⟩, harcount, hcounts⟩
    cases hcounts
    exact ⟨(skip_eq_ok_iff.1 hheader).2, (readU16_eq_ok_iff.1 hqdcount).1,
      (readU16_eq_ok_iff.1 hancount).1, (readU16_eq_ok_iff.1 hnscount).1,
      (readU16_eq_ok_iff.1 harcount).1⟩
  · intro ⟨hadmits, hqdcount, hancount, hnscount, harcount⟩
    refine ⟨_, skip_eq_ok_iff.2 ⟨rfl, hadmits⟩,
      _, readU16_eq_ok_iff.2 ⟨hqdcount, rfl, hadmits.mono (by decide)⟩,
      _, readU16_eq_ok_iff.2 ⟨hancount, rfl, hadmits.mono (by decide)⟩,
      _, readU16_eq_ok_iff.2 ⟨hnscount, rfl, hadmits.mono (by decide)⟩,
      _, readU16_eq_ok_iff.2 ⟨harcount, rfl, hadmits.mono (by decide)⟩, rfl⟩

def headerCounts (octets : Octets) : Counts :=
  ⟨octets.u16At 4, octets.u16At 6, octets.u16At 8, octets.u16At 10⟩

theorem read_headerCounts (h : headerLength ≤ octets.size) :
    Counts.read octets = .ok (headerCounts octets) := by
  unfold headerLength at h
  exact Counts.read_eq_ok_iff.2 ⟨⟨h, by decide⟩, Octets.spells_u16At (by omega),
    Octets.spells_u16At (by omega), Octets.spells_u16At (by omega), Octets.spells_u16At (by omega)⟩

namespace Message

variable (message : Message)

theorem length_encodeHeader : message.encodeHeader.length = headerLength := by
  simp [encodeHeader, headerLength]

theorem recordsStart_eq :
    message.recordsStart = headerLength + (message.questions.flatMap Question.encode).length := by
  rw [recordsStart, length_encodeHeader]
  rfl

theorem length_questions : message.questions.length = message.counts.qdcount.toNat := by
  have := message.questions_lt
  rw [counts, UInt16.toNat_ofNat']
  omega

theorem length_answers : message.answers.length = message.counts.ancount.toNat := by
  have := message.answers_lt
  rw [counts, UInt16.toNat_ofNat']
  omega

theorem length_authorities : message.authorities.length = message.counts.nscount.toNat := by
  have := message.authorities_lt
  rw [counts, UInt16.toNat_ofNat']
  omega

theorem length_additionals : message.additionals.length = message.counts.arcount.toNat := by
  have := message.additionals_lt
  rw [counts, UInt16.toNat_ofNat']
  omega

theorem length_records : message.records.length = message.counts.records := by
  rw [records, List.length_append, List.length_append, message.length_answers,
    message.length_authorities, message.length_additionals, Counts.records]

/-- The encoding of a message spells its parts one behind the other. -/
theorem encode_spells :
    message.encode.Spells 0 message.encodeHeader ∧
      message.encode.Spells headerLength (message.questions.flatMap Question.encode) ∧
      message.encode.Spells message.recordsStart (message.records.flatMap Record.encode) ∧
      message.recordsEnd ≤ message.encode.size := by
  have hspells : message.encode.Spells 0 (message.encodeHeader ++ message.encodeQuestions ++
      message.encodeRecords ++ message.trailing) := Octets.spells_toArray _
  simp only [Octets.spells_append, List.length_append, length_encodeHeader, Nat.zero_add]
    at hspells
  obtain ⟨⟨⟨hheader, hquestions⟩, hrecords⟩, _⟩ := hspells
  refine ⟨hheader, hquestions, ?_, ?_⟩
  · rw [recordsStart_eq]
    exact hrecords
  · simp only [recordsEnd, recordsStart, encode, List.size_toArray, List.length_append]
    omega

theorem read_counts_of_spells (hspells : octets.Spells 0 message.encodeHeader)
    (hadmits : octets.Admits headerLength) : Counts.read octets = .ok message.counts := by
  simp only [encodeHeader, Octets.spells_append, List.length_append, Octets.length_ofU16]
    at hspells
  obtain ⟨⟨⟨⟨_, hqdcount⟩, hancount⟩, hnscount⟩, harcount⟩ := hspells
  exact Counts.read_eq_ok_iff.2 ⟨hadmits, hqdcount, hancount, hnscount, harcount⟩

/-- Questions and records in the numbers that the header gives are those of a message. -/
theorem exists_of_counts {counts : Counts} {questions : List Question} {records : List Record}
    (hquestions : questions.length = counts.qdcount.toNat)
    (hrecords : records.length = counts.records) (id flags : UInt16) (trailing : List UInt8) :
    ∃ message : Message, message.id = id ∧ message.flags = flags ∧ message.counts = counts ∧
      message.questions = questions ∧ message.records = records ∧ message.trailing = trailing := by
  obtain ⟨qdcount, ancount, nscount, arcount⟩ := counts
  simp only [Counts.records] at hquestions hrecords
  have hsplit : ∃ answers authorities additionals, records = answers ++ authorities ++ additionals ∧
      answers.length = ancount.toNat ∧ authorities.length = nscount.toNat ∧
      additionals.length = arcount.toNat := by
    refine ⟨records.take ancount.toNat, (records.drop ancount.toNat).take nscount.toNat,
      (records.drop ancount.toNat).drop nscount.toNat, ?_, ?_, ?_, ?_⟩
    · rw [List.append_assoc, List.take_append_drop, List.take_append_drop]
    · rw [List.length_take]
      omega
    · rw [List.length_take, List.length_drop]
      omega
    · rw [List.length_drop, List.length_drop]
      omega
  obtain ⟨answers, authorities, additionals, hrecordsEq, hanswers, hauthorities, hadditionals⟩ :=
    hsplit
  refine ⟨{
    id, flags, questions, answers, authorities, additionals, trailing
    questions_lt := hquestions ▸ qdcount.toNat_lt
    answers_lt := hanswers ▸ ancount.toNat_lt
    authorities_lt := hauthorities ▸ nscount.toNat_lt
    additionals_lt := hadditionals ▸ arcount.toNat_lt }, rfl, rfl, ?_, rfl, hrecordsEq.symm, rfl⟩
  simp [counts, hquestions, hanswers, hauthorities, hadditionals]

end Message

/-! ## Messages -/

/-- The walk in terms of what is spelled: the counts, and behind the header so many questions and
so many records. -/
theorem walk_eq_ok_iff_spells :
    walk octets = .ok ttlOffsets ↔
      ∃ counts, ∃ questions : List Question, ∃ records : List Record, ∃ recordsStart,
        Counts.read octets = .ok counts ∧
        questions.length = counts.qdcount.toNat ∧ records.length = counts.records ∧
        recordsStart = headerLength + (questions.flatMap Question.encode).length ∧
        octets.Spells headerLength (questions.flatMap Question.encode) ∧
        octets.Spells recordsStart (records.flatMap Record.encode) ∧
        ttlOffsets = Record.ttlOffsetsFrom recordsStart records ∧
        octets.Admits (recordsStart + (records.flatMap Record.encode).length) := by
  rw [walk_eq]
  simp only [bind_eq_ok_iff]
  constructor
  · intro ⟨counts, hcounts, recordsStart, hquestions, ⟨_, stop⟩, hrecords, hoffsets⟩
    cases hoffsets
    obtain ⟨questions, hquestionsLength, hquestionsSpells, hstartEq, hstart⟩ :=
      (skipQuestions_eq_ok_iff (Counts.read_eq_ok_iff.1 hcounts).1).1 hquestions
    obtain ⟨records, hrecordsLength, hrecordsSpells, hoffsets, hstopEq, hstop⟩ :=
      (passRecords_eq_ok_iff hstart).1 hrecords
    exact ⟨counts, questions, records, recordsStart, hcounts, hquestionsLength, hrecordsLength,
      hstartEq, hquestionsSpells, hrecordsSpells, hoffsets, hstopEq ▸ hstop⟩
  · intro ⟨counts, questions, records, recordsStart, hcounts, hquestionsLength, hrecordsLength,
      hstartEq, hquestionsSpells, hrecordsSpells, hoffsets, hstop⟩
    have hstart : octets.Admits recordsStart := hstop.mono (by omega)
    have hquestions : skipQuestions octets counts.qdcount.toNat headerLength = .ok recordsStart :=
      (skipQuestions_eq_ok_iff (hstart.mono (by omega))).2
        ⟨questions, hquestionsLength, hquestionsSpells, hstartEq, hstart⟩
    have hrecords : passRecords octets counts.records recordsStart =
        .ok (ttlOffsets, recordsStart + (records.flatMap Record.encode).length) :=
      (passRecords_eq_ok_iff hstart).2
        ⟨records, hrecordsLength, hrecordsSpells, hoffsets, rfl, hstop⟩
    exact ⟨counts, hcounts, recordsStart, hquestions, _, hrecords, rfl⟩

/-- What is walked is the encoding of a message. -/
theorem exists_message_of_walk (h : walk octets = .ok ttlOffsets) :
    ∃ message : Message, message.encode = octets ∧ message.ttlOffsets = ttlOffsets ∧
      message.recordsEnd ≤ Offset.max := by
  obtain ⟨counts, questions, records, recordsStart, hcounts, hquestionsLength, hrecordsLength,
    rfl, hquestionsSpells, hrecordsSpells, hoffsets, hstop⟩ := walk_eq_ok_iff_spells.1 h
  obtain ⟨hheader, hqdcount, hancount, hnscount, harcount⟩ := Counts.read_eq_ok_iff.1 hcounts
  have hheaderSize : 12 ≤ octets.size := hheader.1
  obtain ⟨trailing, htrailingLength, htrailingSpells⟩ :=
    Octets.exists_spells (Nat.le_of_eq (Nat.add_sub_cancel' hstop.1))
  -- the identifier and the flags are passed over unread, so they are taken as they stand
  obtain ⟨message, hid, hflags, hcountsEq, rfl, rfl, rfl⟩ :=
    Message.exists_of_counts hquestionsLength hrecordsLength (octets.u16At 0) (octets.u16At 2)
      trailing
  have hencodeHeader : octets.Spells 0 message.encodeHeader := by
    simp only [Message.encodeHeader, hid, hflags, hcountsEq, Octets.spells_append,
      List.length_append, Octets.length_ofU16]
    exact ⟨⟨⟨⟨⟨Octets.spells_u16At (by omega), Octets.spells_u16At (by omega)⟩, hqdcount⟩,
      hancount⟩, hnscount⟩, harcount⟩
  refine ⟨message, ?_, ?_, ?_⟩
  · apply Octets.Spells.eq_toArray
    · simp only [Octets.spells_append, List.length_append, message.length_encodeHeader,
        Nat.zero_add, ← Nat.add_assoc]
      exact ⟨⟨⟨hencodeHeader, hquestionsSpells⟩, hrecordsSpells⟩, htrailingSpells⟩
    · have hsize := hstop.1
      simp only [List.length_append, message.length_encodeHeader, htrailingLength,
        Message.encodeQuestions, Message.encodeRecords]
      omega
  · rw [hoffsets, Message.ttlOffsets, message.recordsStart_eq]
  · have hmax := hstop.2
    rw [Message.recordsEnd, message.recordsStart_eq]
    exact hmax

/-- A string that has the records of a message is passed part by part as the message is, whatever
follows them. -/
theorem passes_of_agreeBelow (message : Message) (hmax : message.recordsEnd ≤ Offset.max)
    (hagree : Octets.AgreeBelow message.recordsEnd message.encode octets) :
    Counts.read octets = .ok message.counts ∧
      skipQuestions octets message.counts.qdcount.toNat headerLength = .ok message.recordsStart ∧
      passRecords octets message.counts.records message.recordsStart =
        .ok (message.ttlOffsets, message.recordsEnd) := by
  obtain ⟨hheader, hquestions, hrecords, hsize⟩ := message.encode_spells
  have hheaderLength := message.length_encodeHeader
  have hstart := message.recordsStart_eq
  have hend : message.recordsEnd =
      message.recordsStart + (message.records.flatMap Record.encode).length := rfl
  have hadmits : octets.Admits message.recordsEnd := ⟨hagree.le_size hsize, hmax⟩
  refine ⟨?_, ?_, ?_⟩
  · exact message.read_counts_of_spells (hagree.spells hheader (by omega))
      (hadmits.mono (by omega))
  · exact (skipQuestions_eq_ok_iff (hadmits.mono (by omega))).2 ⟨message.questions,
      message.length_questions, hagree.spells hquestions (by omega), hstart,
      hadmits.mono (by omega)⟩
  · exact (passRecords_eq_ok_iff (hadmits.mono (by omega))).2 ⟨message.records,
      message.length_records, hagree.spells hrecords (by omega), rfl, rfl, hadmits⟩

/-- A string that has the records of a message is walked like it. -/
theorem walk_of_agreeBelow (message : Message) (hmax : message.recordsEnd ≤ Offset.max)
    (hagree : Octets.AgreeBelow message.recordsEnd message.encode octets) :
    walk octets = .ok message.ttlOffsets := by
  obtain ⟨hcounts, hquestions, hrecords⟩ := passes_of_agreeBelow message hmax hagree
  rw [walk_eq, hcounts, ok_bind, hquestions, ok_bind, hrecords]
  rfl

/-- A message that is written down is walked, if its records end at an offset. -/
theorem walk_encode_of_le (message : Message) (h : message.recordsEnd ≤ Offset.max) :
    walk message.encode = .ok message.ttlOffsets :=
  walk_of_agreeBelow message h fun _ _ => rfl

theorem walk_eq_ok_iff :
    walk octets = .ok ttlOffsets ↔
      ∃ message : Message, message.encode = octets ∧ message.ttlOffsets = ttlOffsets ∧
        message.recordsEnd ≤ Offset.max := by
  constructor
  · exact exists_message_of_walk
  · intro ⟨message, hencode, hoffsets, hend⟩
    rw [← hencode, ← hoffsets]
    exact walk_encode_of_le message hend

/-- **The walk accepts exactly the messages.** What is written for a message is walked to the
offsets of its TTLs, unless it is so long that its records end beyond the largest offset; and what
is walked is written for one message and no other, whose TTLs stand at the offsets found. -/
theorem walk_accepts_exactly_messages :
    (∀ message : Message,
      walk message.encode = .ok message.ttlOffsets ↔ message.recordsEnd ≤ Offset.max) ∧
    ∀ octets ttlOffsets, walk octets = .ok ttlOffsets →
      ∃ message : Message, message.encode = octets ∧ message.ttlOffsets = ttlOffsets ∧
        ∀ other : Message, other.encode = octets → other = message := by
  constructor
  · intro message
    constructor
    · intro h
      obtain ⟨message', hencode, _, hend⟩ := walk_eq_ok_iff.1 h
      rw [← Message.encode_injective hencode]
      exact hend
    · exact walk_encode_of_le message
  · intro octets ttlOffsets h
    obtain ⟨message, hencode, hoffsets, _⟩ := walk_eq_ok_iff.1 h
    refine ⟨message, hencode, hoffsets, ?_⟩
    intro other hother
    exact Message.encode_injective (hother.trans hencode.symm)

/-- A response with one question, an address and an OPT record, and an octet left over. -/
def Message.sample : Message where
  id := 0x1234
  flags := 0x8180
  questions := [⟨⟨[⟨[0x61], by decide, by decide⟩], .root⟩, 1, 1⟩]
  answers := [⟨⟨[], .pointer 0xc0 0x0c (by decide)⟩, 1, 1, 300, [127, 0, 0, 1], by decide⟩]
  authorities := []
  additionals := [⟨⟨[], .root⟩, optType, 1232, 0, [], by decide⟩]
  trailing := [0xff]
  questions_lt := by decide
  answers_lt := by decide
  authorities_lt := by decide
  additionals_lt := by decide

theorem walk_sample : walk Message.sample.encode = .ok [25, 40] :=
  walk_encode_of_le Message.sample (by decide)

theorem sample_is_one_message :
    walk Message.sample.encode = .ok [25, 40] ∧
      ∃ message : Message, message.encode = Message.sample.encode ∧
        message.ttlOffsets = [25, 40] ∧
        ∀ other : Message, other.encode = Message.sample.encode → other = message :=
  ⟨(walk_accepts_exactly_messages.1 Message.sample).2 (by decide),
    walk_accepts_exactly_messages.2 _ _ walk_sample⟩

end DnsMatch.Wire
