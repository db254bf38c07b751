import DnsMatch.Proofs.IgnoringTtls

/-! # The exact mode is the stricter one

The exact mode compares any two octet strings and never fails. Messages that it
finds equivalent are equivalent in the other mode too, as far as that can be
used. For a message without records the two modes give the same verdict, since
there is one segment only, which is all of either message (`Verdict.compare_nil`). A
message with a record has a TTL, and a change of that TTL alone is seen by one
mode and not by the other. -/

namespace DnsMatch

open Wire (Counts Message Record walk headerCounts)

variable {expected actual : Octets} {ttlOffsets : List Nat}

namespace Wire

/-- The walk finds one TTL for each record that the header counts. -/
theorem length_of_walk {octets : Octets} (h : walk octets = .ok ttlOffsets) :
    Counts.read octets = .ok (headerCounts octets) ∧
      ttlOffsets.length = (headerCounts octets).records := by
  obtain ⟨counts, _, records, _, hcounts, _, hrecords, _, _, _, rfl, _⟩ :=
    walk_eq_ok_iff_spells.1 h
  have hread := read_headerCounts (Counts.read_eq_ok_iff.1 hcounts).1.1
  obtain rfl : headerCounts octets = counts := Except.ok.inj (hread.symm.trans hcounts)
  exact ⟨hread, by rw [Record.length_ttlOffsetsFrom, hrecords]⟩

theorem length_nil_lt (α : Type) : ([] : List α).length < 65536 :=
  Nat.zero_lt_succ _

def Message.bare : Message where
  id := 0x1234
  flags := 0x8180
  questions := []
  answers := []
  authorities := []
  additionals := []
  trailing := []
  questions_lt := length_nil_lt Question
  answers_lt := length_nil_lt Record
  authorities_lt := length_nil_lt Record
  additionals_lt := length_nil_lt Record

theorem walk_bare : walk Message.bare.encode = .ok [] :=
  walk_encode_of_le Message.bare (by decide)

end Wire

/-! ## The exact mode -/

def Verdict.exact (expected actual : Octets) : Verdict :=
  if expected = actual then .equivalent
  else .different { segment := ⟨0, expected.size⟩, expected, actual }

theorem Verdict.exact_eq_equivalent_iff :
    Verdict.exact expected actual = .equivalent ↔ expected = actual := by
  unfold Verdict.exact
  split <;> simp_all

/-- Without TTLs there is one segment, and that is cut out of either message as a whole. -/
theorem Verdict.compare_nil (expected actual : Octets) :
    Verdict.compare expected actual [] = Verdict.exact expected actual := by
  have hwhole : ∀ octets : Octets, octets.slice? 0 octets.size = some octets := by
    intro octets
    exact Octets.slice?_eq_some_iff.2 ⟨Nat.zero_le _, Nat.le_refl _, Array.extract_size.symm⟩
  simp only [compare, compareFrom, ofSegment, exact, hwhole, Octets.clamp, Array.extract_size,
    Option.isSome_some, true_and, Option.some.injEq]

namespace Mode

theorem result_validate_exact (expected actual : Octets) :
    (exact.validate expected actual).result = .ok (Verdict.exact expected actual) := by
  simp only [validate, validateExactly, Verdict.exact]
  split <;> rfl

theorem validate_exact_eq_equivalent_iff :
    (exact.validate expected actual).result = .ok .equivalent ↔ expected = actual := by
  rw [result_validate_exact, Except.ok.injEq, Verdict.exact_eq_equivalent_iff]

/-! ## Both modes -/

theorem ignoreTtls_equivalent_of_exact (hwalk : walk expected = .ok ttlOffsets)
    (h : (exact.validate expected actual).result = .ok .equivalent) :
    (ignoreTtls.validate expected actual).result = .ok .equivalent := by
  obtain rfl := validate_exact_eq_equivalent_iff.1 h
  exact validate_eq_equivalent_iff.2 ⟨ttlOffsets, hwalk, rfl, .refl ttlOffsets expected⟩

/-- A message with a TTL and the same message with another TTL differ in the exact mode only. -/
theorem exists_modes_disagree {ttlOffset : Nat} (hwalk : walk expected = .ok ttlOffsets)
    (hmem : ttlOffset ∈ ttlOffsets) :
    ∃ actual mismatch, (exact.validate expected actual).result = .ok (.different mismatch) ∧
      (ignoreTtls.validate expected actual).result = .ok .equivalent := by
  obtain ⟨stop, ⟨hsize, _⟩, hchain⟩ := Wire.walk_isChain hwalk
  have hlt : ttlOffset < expected.size := by
    have := (hchain.of_mem hmem).2
    simp only [Wire.ttlLength] at this
    omega
  let changed := expected.setIfInBounds ttlOffset (expected[ttlOffset] + 1)
  have hchanged : expected ≠ changed := by
    intro h
    have hget := congrArg (·[ttlOffset]?) h
    simp [changed, hlt] at hget
  refine ⟨changed, ⟨⟨0, expected.size⟩, expected, changed⟩, ?_, ?_⟩
  · rw [result_validate_exact, Verdict.exact, if_neg hchanged]
  · refine validate_eq_equivalent_iff.2 ⟨ttlOffsets, hwalk, Array.size_setIfInBounds, ?_⟩
    intro offset hout
    -- the change is at the first octet of a window
    have hne : ttlOffset ≠ offset := by
      rintro rfl
      exact hout ⟨ttlOffset, hmem, Nat.le_refl _, by simp [Wire.ttlLength]⟩
    simp [changed, Array.getElem?_setIfInBounds_ne hne]

/-- The modes give the same verdicts for a message without records. -/
theorem validate_eq_of_records_eq_zero (hwalk : walk expected = .ok ttlOffsets)
    (hrecords : (headerCounts expected).records = 0) (actual : Octets) :
    (ignoreTtls.validate expected actual).result = (exact.validate expected actual).result := by
  have hlength := (Wire.length_of_walk hwalk).2
  obtain rfl : ttlOffsets = [] := List.length_eq_zero_iff.1 (hlength.trans hrecords)
  rw [result_validate_ignoreTtls, hwalk, Except.map, Verdict.compare_nil, result_validate_exact]

/-- **The exact mode is the stricter one.** It never fails, and for a message that is walked it
finds no equivalence that the other mode does not find. If the message has no records, the modes
give the same verdicts, and if it has one, some message is equivalent to it in the other mode alone.
So the modes agree on every actual message exactly if the expected one has no records. -/
theorem exact_refines_ignoreTtls :
    (∀ expected actual, ∃ verdict, (exact.validate expected actual).result = .ok verdict) ∧
    ∀ expected ttlOffsets, walk expected = .ok ttlOffsets →
      Counts.read expected = .ok (headerCounts expected) ∧
      (∀ actual, (exact.validate expected actual).result = .ok .equivalent →
        (ignoreTtls.validate expected actual).result = .ok .equivalent) ∧
      (∀ actual mismatch, (ignoreTtls.validate expected actual).result = .ok (.different mismatch) →
        ∃ mismatch', (exact.validate expected actual).result = .ok (.different mismatch')) ∧
      ((headerCounts expected).records = 0 → ∀ actual,
        (ignoreTtls.validate expected actual).result = (exact.validate expected actual).result) ∧
      ((headerCounts expected).records ≠ 0 → ∃ actual mismatch,
        (exact.validate expected actual).result = .ok (.different mismatch) ∧
          (ignoreTtls.validate expected actual).result = .ok .equivalent) ∧
      ((∀ actual, (ignoreTtls.validate expected actual).result =
          (exact.validate expected actual).result) ↔ (headerCounts expected).records = 0) := by
  refine ⟨fun expected actual => ⟨_, result_validate_exact expected actual⟩, ?_⟩
  intro expected ttlOffsets hwalk
  obtain ⟨hcounts, hlength⟩ := Wire.length_of_walk hwalk
  have hdisagree : (headerCounts expected).records ≠ 0 → ∃ actual mismatch,
      (exact.validate expected actual).result = .ok (.different mismatch) ∧
        (ignoreTtls.validate expected actual).result = .ok .equivalent := by
    intro hrecords
    rw [← hlength] at hrecords
    obtain ⟨ttlOffset, hmem⟩ := List.exists_mem_of_length_pos (Nat.pos_of_ne_zero hrecords)
    exact exists_modes_disagree hwalk hmem
  refine ⟨hcounts, fun _ => ignoreTtls_equivalent_of_exact hwalk, ?_,
    validate_eq_of_records_eq_zero hwalk, hdisagree, ?_⟩
  · intro actual mismatch h
    cases hverdict : Verdict.exact expected actual with
    | equivalent =>
      rw [ignoreTtls_equivalent_of_exact hwalk (by rw [result_validate_exact, hverdict])] at h
      cases h
    | different mismatch' => exact ⟨mismatch', by rw [result_validate_exact, hverdict]⟩
  · refine ⟨fun hagree => ?_, validate_eq_of_records_eq_zero hwalk⟩
    apply Decidable.of_not_not
    intro hrecords
    obtain ⟨actual, mismatch, hexact, hignore⟩ := hdisagree hrecords
    rw [hagree, hexact] at hignore
    cases hignore

/-- The sample has two records, so there is a message that only the exact mode tells from it. For a
bare header the modes agree. -/
theorem exact_refines_ignoreTtls_sample :
    (∃ actual mismatch,
      (exact.validate Message.sample.encode actual).result = .ok (.different mismatch) ∧
        (ignoreTtls.validate Message.sample.encode actual).result = .ok .equivalent) ∧
    walk Message.bare.encode = .ok [] ∧
      ∀ actual, (ignoreTtls.validate Message.bare.encode actual).result =
        (exact.validate Message.bare.encode actual).result := by
  obtain ⟨_, _, _, _, hdisagree, _⟩ := exact_refines_ignoreTtls.2 _ _ Wire.walk_sample
  obtain ⟨_, _, _, hagree, _⟩ := exact_refines_ignoreTtls.2 _ _ Wire.walk_bare
  exact ⟨hdisagree (by decide), Wire.walk_bare, hagree (by decide)⟩

end Mode

end DnsMatch
