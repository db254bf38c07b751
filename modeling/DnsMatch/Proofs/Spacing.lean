import DnsMatch.Proofs.Comparison

/-! # How far apart the TTLs of a walked message are

Before each TTL of a walked message there is room for the least that a record
can have there, and behind it for an RDLENGTH and the data that this counts
(`IsRoomyFrom`). From that follow bounds on each TTL offset and on the number of
them, and that no two windows meet. -/

namespace DnsMatch

namespace Wire

variable {octets : Octets} {ttlOffsets : List Nat} {start stop ttlOffset : Nat}

def rdlengthBehind (octets : Octets) (ttlOffset : Nat) : Nat :=
  (octets.u16At (ttlOffset + ttlLength)).toNat

/-- Whether records fit around the TTLs, the first of which starts at `start`: a name of at least
one octet, TYPE and CLASS before each TTL, and behind it the RDLENGTH and as many octets as that
says, all before `stop`. -/
def IsRoomyFrom (octets : Octets) (stop start : Nat) : List Nat → Prop
  | [] => start ≤ stop
  | ttlOffset :: ttlOffsets =>
    start + 5 ≤ ttlOffset ∧
      IsRoomyFrom octets stop (ttlOffset + 6 + rdlengthBehind octets ttlOffset) ttlOffsets

/-! ## What follows from the room around TTLs -/

namespace IsRoomyFrom

/-- The shortest record has eleven octets. -/
theorem add_length_le (h : IsRoomyFrom octets stop start ttlOffsets) :
    start + 11 * ttlOffsets.length ≤ stop := by
  induction ttlOffsets generalizing start with
  | nil => exact h
  | cons ttlOffset ttlOffsets ih =>
    have := h.1
    have := ih h.2
    rw [List.length_cons]
    omega

theorem le_getElem (h : IsRoomyFrom octets stop start ttlOffsets) {k : Nat}
    (hk : k < ttlOffsets.length) : start + 5 + 11 * k ≤ ttlOffsets[k] := by
  induction ttlOffsets generalizing start k with
  | nil => exact absurd hk (Nat.not_lt_zero k)
  | cons ttlOffset ttlOffsets ih =>
    have hfirst := h.1
    cases k with
    | zero => exact hfirst
    | succ k =>
      have := ih h.2 (Nat.lt_of_succ_lt_succ hk)
      rw [List.getElem_cons_succ]
      omega

theorem of_mem (h : IsRoomyFrom octets stop start ttlOffsets) (hmem : ttlOffset ∈ ttlOffsets) :
    start + 5 ≤ ttlOffset ∧ ttlOffset + 6 + rdlengthBehind octets ttlOffset ≤ stop := by
  induction ttlOffsets generalizing start with
  | nil => cases hmem
  | cons first ttlOffsets ih =>
    have hfirst := h.1
    rcases List.mem_cons.1 hmem with rfl | hrest
    · have := h.2.add_length_le
      exact ⟨hfirst, by omega⟩
    · have := ih h.2 hrest
      exact ⟨by omega, this.2⟩

/-- Between two TTLs there is the rest of the record of the one and the least that the record of the
other has before its TTL. -/
theorem pairwise (h : IsRoomyFrom octets stop start ttlOffsets) :
    ttlOffsets.Pairwise fun ttlOffset next =>
      ttlOffset + 11 + rdlengthBehind octets ttlOffset ≤ next := by
  induction ttlOffsets generalizing start with
  | nil => exact .nil
  | cons ttlOffset ttlOffsets ih =>
    refine .cons (fun next hmem => ?_) (ih h.2)
    have := (h.2.of_mem hmem).1
    omega

end IsRoomyFrom

/-! ## The room in a message -/

theorem Record.rdlengthBehind_eq {record : Record} (hspells : octets.Spells start record.encode) :
    rdlengthBehind octets (start + record.encodeHead.length) = record.rdata.length := by
  have hlength := record.length_encode
  have hsize := hspells.le_size (by omega)
  obtain ⟨_, _, _, _, hrdlength, _⟩ := Record.spells_encode_iff.1 hspells
  rw [record.length_encodeHead] at hlength ⊢
  rw [rdlengthBehind, ttlLength, ← record.toNat_rdlength]
  congr 1
  exact (Octets.spells_ofU16_iff (by omega)).1 hrdlength

theorem Record.isRoomyFrom_ttlOffsetsFrom {records : List Record}
    (hspells : octets.Spells start (records.flatMap Record.encode)) :
    IsRoomyFrom octets (start + (records.flatMap Record.encode).length) start
      (ttlOffsetsFrom start records) := by
  induction records generalizing start with
  | nil => exact Nat.le_add_right _ _
  | cons record records ih =>
    rw [List.flatMap_cons, Octets.spells_append] at hspells
    have howner := record.owner.length_encode_pos
    have hhead := record.length_encodeHead
    refine ⟨by omega, ?_⟩
    rw [record.rdlengthBehind_eq hspells.1, List.flatMap_cons, List.length_append, ← Nat.add_assoc,
      show start + record.encodeHead.length + 6 + record.rdata.length =
        start + record.encode.length by rw [record.length_encode]; omega]
    exact ih hspells.2

/-- The shortest question has five octets. -/
theorem Question.length_le_flatMap (questions : List Question) :
    5 * questions.length ≤ (questions.flatMap Question.encode).length := by
  induction questions with
  | nil => exact Nat.le_refl _
  | cons question questions ih =>
    have hname := question.name.length_encode_pos
    have hlength := question.length_encode
    rw [List.flatMap_cons, List.length_append, List.length_cons]
    omega

/-- The records of a walked message start behind its questions and have room around their TTLs. -/
theorem walk_isRoomy (h : walk octets = .ok ttlOffsets) :
    ∃ counts recordsStart stop, Counts.read octets = .ok counts ∧
      skipQuestions octets counts.qdcount.toNat headerLength = .ok recordsStart ∧
      ttlOffsets.length = counts.records ∧
      headerLength + 5 * counts.qdcount.toNat ≤ recordsStart ∧
      IsRoomyFrom octets stop recordsStart ttlOffsets ∧ octets.Admits stop := by
  obtain ⟨counts, questions, records, recordsStart, hcounts, hquestions, hrecords, hstart,
    hquestionsSpells, hrecordsSpells, rfl, hadmits⟩ := walk_eq_ok_iff_spells.1 h
  have hheader := (Counts.read_eq_ok_iff.1 hcounts).1
  have hfive := Question.length_le_flatMap questions
  refine ⟨counts, recordsStart, _, hcounts, ?_, ?_, by omega,
    Record.isRoomyFrom_ttlOffsetsFrom hrecordsSpells, hadmits⟩
  · exact (skipQuestions_eq_ok_iff hheader).2
      ⟨questions, hquestions, hquestionsSpells, hstart, hadmits.mono (Nat.le_add_right _ _)⟩
  · rw [Record.length_ttlOffsetsFrom, hrecords]

/-- **The TTLs of a walked message are well apart.** There is one for each record that the header
counts. Each is as far behind the header as the questions and records before it take at least, each
leaves the next room for the data of its record, and no record ends behind the message. So the
offsets ascend, their windows are in the message behind the questions and do not meet, no sum of an
offset and a length goes beyond the largest offset, and what is walked has as many octets as its
counts ask for at least. -/
theorem walk_keeps_ttls_apart (h : walk octets = .ok ttlOffsets) :
    ∃ counts recordsStart, Counts.read octets = .ok counts ∧
      skipQuestions octets counts.qdcount.toNat headerLength = .ok recordsStart ∧
      12 + 5 * counts.qdcount.toNat ≤ recordsStart ∧
      ttlOffsets.length = counts.records ∧
      (∀ k (hk : k < ttlOffsets.length),
        12 + 5 * counts.qdcount.toNat + 5 + 11 * k ≤ ttlOffsets[k]) ∧
      (∀ k (hk : k + 1 < ttlOffsets.length),
        ttlOffsets[k] + 11 + rdlengthBehind octets ttlOffsets[k] ≤ ttlOffsets[k + 1]) ∧
      (∀ ttlOffset ∈ ttlOffsets, ttlOffset + 6 + rdlengthBehind octets ttlOffset ≤ octets.size) ∧
      ttlOffsets.Pairwise (· < ·) ∧
      ttlOffsets.Pairwise (fun ttlOffset next =>
        ∀ offset, InWindow [ttlOffset] offset → ¬InWindow [next] offset) ∧
      (∀ offset, InWindow ttlOffsets offset → recordsStart ≤ offset ∧ offset < octets.size) ∧
      (∀ ttlOffset ∈ ttlOffsets, ttlOffset + 6 + rdlengthBehind octets ttlOffset ≤ Offset.max ∧
        Segment.startAfter ttlOffset = ttlOffset + ttlLength) ∧
      12 + 5 * counts.qdcount.toNat + 11 * counts.records ≤ octets.size := by
  obtain ⟨counts, recordsStart, stop, hcounts, hquestions, hlength, hstart, hroomy, hsize, hmax⟩ :=
    walk_isRoomy h
  unfold headerLength at hstart
  have hpairwise := hroomy.pairwise
  refine ⟨counts, recordsStart, hcounts, hquestions, hstart, hlength,
    ?_, ?_, ?_, ?_, ?_, ?_, ?_, ?_⟩
  · intro k hk
    have := hroomy.le_getElem hk
    omega
  · intro k hk
    exact List.pairwise_iff_getElem.1 hpairwise k (k + 1) _ hk (Nat.lt_succ_self k)
  · intro ttlOffset hmem
    exact Nat.le_trans (hroomy.of_mem hmem).2 hsize
  · exact hpairwise.imp fun hle => by omega
  · refine hpairwise.imp fun hle offset hwindow hwindow' => ?_
    simp only [inWindow_cons, not_inWindow_nil, or_false, ttlLength] at hwindow hwindow'
    omega
  · intro offset hwindow
    obtain ⟨ttlOffset, hmem, hle, hlt⟩ := hwindow
    obtain ⟨hbefore, hbehind⟩ := hroomy.of_mem hmem
    simp only [ttlLength] at hlt
    omega
  · intro ttlOffset hmem
    have hbehind := (hroomy.of_mem hmem).2
    refine ⟨Nat.le_trans hbehind hmax, Segment.startAfter_eq ?_⟩
    simp only [ttlLength]
    omega
  · have := hroomy.add_length_le
    omega

/-- In the sample nothing is between the data of the first record and the second TTL but what every
record has there. -/
theorem walk_keeps_ttls_apart_sample :
    walk Message.sample.encode = .ok [25, 40] ∧
      ∃ counts, Counts.read Message.sample.encode = .ok counts ∧
        12 + 5 * counts.qdcount.toNat + 5 ≤ 25 ∧
        25 + 11 + rdlengthBehind Message.sample.encode 25 ≤ 40 ∧
        12 + 5 * counts.qdcount.toNat + 11 * counts.records ≤ Message.sample.encode.size := by
  obtain ⟨counts, _, hcounts, _, _, _, hbefore, hbetween, _, _, _, _, _, hsize⟩ :=
    walk_keeps_ttls_apart walk_sample
  exact ⟨walk_sample, counts, hcounts, hbefore 0 (by decide), hbetween 0 (by decide), hsize⟩

end Wire

end DnsMatch
