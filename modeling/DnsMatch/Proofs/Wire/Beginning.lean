import DnsMatch.Proofs.Wire.Grammar

/-! # Every string with a header begins a message

Zeros complete any string: a name that is cut off ends at a zero at the latest,
and what lacks behind it is a question or a record of zeros. So a string that
has a header is the encoding of a message or the beginning of one, and the only
thing that can be wrong with it is that it ends too early. -/

namespace DnsMatch.Wire

def ZeroFrom (data : Nat) (octets : Octets) : Prop :=
  ∀ i, data ≤ i → i < octets.size → octets[i]? = some 0

variable {octets : Octets} {data cursor : Nat}

/-! ## Passing a string that ends in zeros

Each lemma says that there is enough to read, and bounds how far behind `data`
the cursor comes to stand, if it was not behind it by then. -/

section Zeros

variable (hzero : ZeroFrom data octets) (hmax : octets.size ≤ Offset.max)

include hzero hmax

theorem skipName_zero (hdata : data ≤ cursor) (hcursor : cursor < octets.size) :
    skipName octets cursor = .ok (cursor + 1) := by
  have hspells : octets.Spells cursor (Name.mk [] .root).encode :=
    Octets.spells_cons.2 ⟨hzero cursor hdata hcursor, Octets.spells_nil⟩
  exact skipName_of_spells hspells ⟨hcursor, Nat.le_trans hcursor hmax⟩

theorem exists_skipName (cursor : Nat) (hroom : max cursor data + 65 ≤ octets.size) :
    ∃ stop, skipName octets cursor = .ok stop ∧ stop ≤ max cursor data + 65 := by
  fun_induction skipName octets cursor with
  | case1 cursor truncation hlength =>
    rw [readU8_of_le hmax (by omega)] at hlength
    cases hlength
  | case2 cursor next hlength =>
    obtain ⟨_, rfl, _⟩ := readU8_eq_ok hlength
    exact ⟨_, rfl, by omega⟩
  | case3 cursor labelLength next hlength hnonzero hgt =>
    obtain ⟨_, rfl, _⟩ := readU8_eq_ok hlength
    exact ⟨_, skip_of_le hmax (by omega), by omega⟩
  | case4 cursor labelLength next hlength hnonzero hgt truncation hlabel =>
    obtain ⟨_, rfl, _⟩ := readU8_eq_ok hlength
    have hle : labelLength.toNat ≤ 63 := toNat_le_of_not_gt hgt
    rw [skip_of_le hmax (by omega)] at hlabel
    cases hlabel
  | case5 cursor labelLength next hlength hnonzero hgt labelEnd hlabel _ ih =>
    obtain ⟨_, rfl, _⟩ := readU8_eq_ok hlength
    obtain ⟨rfl, _⟩ := skip_eq_ok hlabel
    have hle : labelLength.toNat ≤ 63 := toNat_le_of_not_gt hgt
    -- the label goes into the zeros, or the rest of the name starts in front of them
    by_cases hdata : data ≤ cursor + 1 + labelLength.toNat
    · exact ⟨_, skipName_zero hzero hmax hdata (by omega), by omega⟩
    · obtain ⟨stop, hstop, hbound⟩ := ih (by omega)
      exact ⟨stop, hstop, by omega⟩

theorem exists_skipQuestion (cursor : Nat) (hroom : max cursor data + 69 ≤ octets.size) :
    ∃ stop, skipQuestion octets cursor = .ok stop ∧ stop ≤ max cursor data + 69 := by
  obtain ⟨nameEnd, hname, hbound⟩ := exists_skipName hzero hmax cursor (by omega)
  refine ⟨nameEnd + 4, ?_, by omega⟩
  rw [skipQuestion, hname, ok_bind, typeAndClassLength]
  exact skip_of_le hmax (by omega)

theorem exists_skipQuestions (count cursor : Nat)
    (hroom : max cursor data + count * 69 ≤ octets.size) :
    ∃ stop, skipQuestions octets count cursor = .ok stop ∧
      stop ≤ max cursor data + count * 69 := by
  induction count generalizing cursor with
  | zero => exact ⟨cursor, rfl, by omega⟩
  | succ count ih =>
    obtain ⟨next, hnext, hnextBound⟩ := exists_skipQuestion hzero hmax cursor (by omega)
    obtain ⟨stop, hstop, hstopBound⟩ := ih next (by omega)
    refine ⟨stop, ?_, by omega⟩
    rw [skipQuestions_succ, hnext]
    exact hstop

theorem exists_skipRecord (start : Nat) (hroom : max start data + 65610 ≤ octets.size) :
    ∃ extent, (skipRecord octets start).result = .ok extent ∧
      extent.stop ≤ max start data + 65610 := by
  obtain ⟨ownerEnd, howner, hbound⟩ := exists_skipName hzero hmax start (by omega)
  have hlt := (octets.u16At (ownerEnd + 4 + 4)).toNat_lt
  generalize hrdlength : octets.u16At (ownerEnd + 4 + 4) = rdlength at hlt
  have hrdata : skip octets (ownerEnd + 4 + 4 + 2) rdlength.toNat .rdata = .ok _ :=
    skip_of_le hmax (by omega)
  refine ⟨⟨ownerEnd + 4, ownerEnd + 4 + 4 + 2 + rdlength.toNat⟩, ?_, ?_⟩
  · simp only [result_skipRecord_eq_reads, typeAndClassLength, bind_eq_ok_iff]
    exact ⟨_, howner, _, readU16_of_le hmax (by omega), _, skip_of_le hmax (by omega),
      _, readU32_of_le hmax (by omega), _, readU16_of_le hmax (by omega),
      _, hrdlength ▸ hrdata, rfl⟩
  · show ownerEnd + 4 + 4 + 2 + rdlength.toNat ≤ _
    omega

theorem exists_passRecords (count start : Nat)
    (hroom : max start data + count * 65610 ≤ octets.size) :
    ∃ passed, passRecords octets count start = .ok passed := by
  induction count generalizing start with
  | zero => exact ⟨_, rfl⟩
  | succ count ih =>
    obtain ⟨extent, hextent, hbound⟩ := exists_skipRecord hzero hmax start (by omega)
    obtain ⟨passed, hpassed⟩ := ih extent.stop (by omega)
    rw [passRecords, hextent, ok_bind, hpassed]
    exact ⟨_, rfl⟩

/-- A string is walked if it has a header and zeros enough for as many questions and records as a
header can announce. -/
theorem exists_walk (hheader : headerLength ≤ data)
    (hroom : data + 65535 * 69 + 3 * 65535 * 65610 ≤ octets.size) :
    ∃ ttlOffsets, walk octets = .ok ttlOffsets := by
  have hcounts : Counts.read octets = .ok (headerCounts octets) := read_headerCounts (by omega)
  generalize headerCounts octets = counts at hcounts
  have hqdcount := counts.qdcount.toNat_lt
  have hrecords : counts.records ≤ 3 * 65535 := by
    have := counts.ancount.toNat_lt
    have := counts.nscount.toNat_lt
    have := counts.arcount.toNat_lt
    unfold Counts.records
    omega
  have hquestionsRoom : counts.qdcount.toNat * 69 ≤ 65535 * 69 :=
    Nat.mul_le_mul_right _ (by omega)
  have hrecordsRoom : counts.records * 65610 ≤ 3 * 65535 * 65610 :=
    Nat.mul_le_mul_right _ hrecords
  obtain ⟨recordsStart, hquestions, hbound⟩ :=
    exists_skipQuestions hzero hmax counts.qdcount.toNat headerLength (by omega)
  obtain ⟨passed, hpassed⟩ := exists_passRecords hzero hmax counts.records recordsStart (by omega)
  rw [walk_eq, hcounts, ok_bind, hquestions, ok_bind, hpassed]
  exact ⟨_, rfl⟩

end Zeros

/-! ## Completing a string -/

/-- **A string that has a header begins a message.** -/
theorem exists_message_of_header (hheader : headerLength ≤ octets.size)
    (hsize : octets.size ≤ Offset.max / 2) :
    ∃ message : Message, message.recordsEnd ≤ Offset.max ∧
      message.encode.extract 0 octets.size = octets := by
  generalize hpadding : Offset.max - octets.size = padding
  let completed : Octets := octets ++ Array.replicate padding 0
  have hcompletedSize : completed.size = Offset.max := by
    simp only [completed, Array.size_append, Array.size_replicate]
    omega
  have hzero : ZeroFrom octets.size completed := by
    intro i hi hlt
    rw [Array.getElem?_append_right hi, Array.getElem?_replicate, if_pos (by omega)]
  have hroom : octets.size + 65535 * 69 + 3 * 65535 * 65610 ≤ completed.size := by
    have : 65535 * 69 + 3 * 65535 * 65610 ≤ Offset.max / 2 := by decide
    omega
  obtain ⟨ttlOffsets, hwalk⟩ := exists_walk hzero (Nat.le_of_eq hcompletedSize) hheader hroom
  obtain ⟨message, hencode, _, hmax⟩ := walk_eq_ok_iff.1 hwalk
  refine ⟨message, hmax, ?_⟩
  rw [hencode]
  simp [completed]

end DnsMatch.Wire
