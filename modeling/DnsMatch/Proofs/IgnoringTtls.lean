import DnsMatch.Mode
import DnsMatch.Proofs.Comparison

/-! # Comparing messages but for their TTLs

`validate_eq_equivalent_iff` joins the walk and the comparison: two messages
are equivalent if the expected one is walked, and the actual one has its length
and agrees with it outside its TTL windows. Everything else here follows from
it and from what the walk and the comparison do not look at. -/

namespace DnsMatch

open Wire (Message walk InWindow AgreeOutside agreeOutside_iff walk_congr walk_isChain)

variable {expected actual expected' actual' left right : Octets} {ttlOffsets : List Nat}

namespace Wire

theorem AgreeOutside.refl (ttlOffsets : List Nat) (octets : Octets) :
    AgreeOutside ttlOffsets octets octets := fun _ _ => rfl

theorem AgreeOutside.symm (h : AgreeOutside ttlOffsets left right) :
    AgreeOutside ttlOffsets right left := fun offset hout => (h offset hout).symm

theorem AgreeOutside.trans {middle : Octets} (h : AgreeOutside ttlOffsets left middle)
    (h' : AgreeOutside ttlOffsets middle right) : AgreeOutside ttlOffsets left right :=
  fun offset hout => (h offset hout).trans (h' offset hout)

end Wire

namespace Mode

theorem result_validate_ignoreTtls (expected actual : Octets) :
    (ignoreTtls.validate expected actual).result =
      (walk expected).map (Verdict.compare expected actual) := by
  simp only [validate, validateIgnoringTtls, Logged.result_bind, Logged.result_write]
  change (walk expected >>= fun ttlOffsets => _) = _
  cases walk expected with
  | error truncation => rfl
  | ok ttlOffsets =>
    simp only [bind, Except.bind, Except.map]
    cases Verdict.compare expected actual ttlOffsets with
    | equivalent => rfl
    | different mismatch => rfl

theorem validate_eq_error_iff {truncation : Wire.Truncation} :
    (ignoreTtls.validate expected actual).result = .error truncation ↔
      walk expected = .error truncation := by
  rw [result_validate_ignoreTtls]
  cases walk expected with
  | error truncation' => simp [Except.map]
  | ok ttlOffsets => simp [Except.map]

theorem validate_eq_equivalent_iff :
    (ignoreTtls.validate expected actual).result = .ok .equivalent ↔
      ∃ ttlOffsets, walk expected = .ok ttlOffsets ∧ actual.size = expected.size ∧
        AgreeOutside ttlOffsets expected actual := by
  rw [result_validate_ignoreTtls, map_eq_ok_iff]
  refine exists_congr fun ttlOffsets => and_congr_right fun hwalk => ?_
  obtain ⟨stop, ⟨hsize, hmax⟩, hchain⟩ := walk_isChain hwalk
  rw [Verdict.compare, Verdict.compareFrom_eq_equivalent_iff, agreeOutside_iff]
  · exact ⟨fun h => h.2, fun h => ⟨hchain.mono_length hsize, h⟩⟩
  · intro ttlOffset hmem _
    exact Nat.le_trans (hchain.of_mem hmem).2 hmax

/-! ## What is compared -/

/-- **Every octet outside the TTLs counts, and none inside.** The comparison fails exactly if the
expected message is not walked, and as the walk fails. Otherwise the messages are equivalent exactly
if they have one length and the same octets outside the windows. -/
theorem ignoreTtls_compares_outside_windows (expected actual : Octets) :
    compareIgnoringTtls expected actual = ignoreTtls.validate expected actual ∧
    (∀ truncation, (ignoreTtls.validate expected actual).result = .error truncation ↔
      walk expected = .error truncation) ∧
    ∀ ttlOffsets, walk expected = .ok ttlOffsets →
      ((ignoreTtls.validate expected actual).result = .ok .equivalent ↔
        actual.size = expected.size ∧
          ∀ i, i < expected.size → ¬InWindow ttlOffsets i → expected[i]? = actual[i]?) := by
  refine ⟨rfl, fun truncation => validate_eq_error_iff, ?_⟩
  intro ttlOffsets hwalk
  rw [validate_eq_equivalent_iff]
  constructor
  · intro ⟨ttlOffsets', hwalk', hsize, hagree⟩
    rw [hwalk] at hwalk'
    cases hwalk'
    exact ⟨hsize, (Wire.agreeOutside_iff_of_size_eq hsize).1 hagree⟩
  · intro ⟨hsize, hagree⟩
    exact ⟨ttlOffsets, hwalk, hsize, (Wire.agreeOutside_iff_of_size_eq hsize).2 hagree⟩

/-- With another TTL the sample is equivalent to itself; with another address it is not. -/
theorem ignoreTtls_compares_outside_windows_sample :
    walk Message.sample.encode = .ok [25, 40] ∧
      (ignoreTtls.validate Message.sample.encode
        (Message.sample.encode.setIfInBounds 27 0)).result = .ok .equivalent ∧
      (ignoreTtls.validate Message.sample.encode
        (Message.sample.encode.setIfInBounds 34 2)).result ≠ .ok .equivalent := by
  refine ⟨Wire.walk_sample, ?_, ?_⟩
  · refine ((ignoreTtls_compares_outside_windows _ _).2.2 _ Wire.walk_sample).2 ?_
    decide
  · rw [Ne, (ignoreTtls_compares_outside_windows _ _).2.2 _ Wire.walk_sample]
    decide

/-! ## An equivalence relation -/

/-- **Equivalence but for TTLs is an equivalence relation on the messages that are walked**,
although the actual message is never walked. -/
theorem ignoreTtls_equivalence (expected actual other : Octets) :
    ((∃ ttlOffsets, walk expected = .ok ttlOffsets) →
      (ignoreTtls.validate expected expected).result = .ok .equivalent) ∧
    ((ignoreTtls.validate expected actual).result = .ok .equivalent →
      (∃ ttlOffsets, walk actual = .ok ttlOffsets ∧ walk actual = walk expected) ∧
        (ignoreTtls.validate actual expected).result = .ok .equivalent) ∧
    ((ignoreTtls.validate expected actual).result = .ok .equivalent →
      (ignoreTtls.validate actual other).result = .ok .equivalent →
      (ignoreTtls.validate expected other).result = .ok .equivalent) := by
  refine ⟨?_, ?_, ?_⟩
  · intro ⟨ttlOffsets, hwalk⟩
    exact validate_eq_equivalent_iff.2 ⟨ttlOffsets, hwalk, rfl, .refl ttlOffsets expected⟩
  · intro h
    obtain ⟨ttlOffsets, hwalk, hsize, hagree⟩ := validate_eq_equivalent_iff.1 h
    have hwalk' := walk_congr hwalk hagree hsize
    refine ⟨⟨ttlOffsets, hwalk', hwalk'.trans hwalk.symm⟩, ?_⟩
    exact validate_eq_equivalent_iff.2 ⟨ttlOffsets, hwalk', hsize.symm, hagree.symm⟩
  · intro h h'
    obtain ⟨ttlOffsets, hwalk, hsize, hagree⟩ := validate_eq_equivalent_iff.1 h
    obtain ⟨ttlOffsets', hwalk', hsize', hagree'⟩ := validate_eq_equivalent_iff.1 h'
    -- both comparisons leave out the same windows
    rw [walk_congr hwalk hagree hsize] at hwalk'
    cases hwalk'
    exact validate_eq_equivalent_iff.2
      ⟨ttlOffsets, hwalk, hsize'.trans hsize, hagree.trans hagree'⟩

/-- Two changes of different TTLs of the sample are equivalent to it and to each other. -/
theorem ignoreTtls_equivalence_sample :
    (ignoreTtls.validate Message.sample.encode Message.sample.encode).result = .ok .equivalent ∧
      (ignoreTtls.validate (Message.sample.encode.setIfInBounds 27 0)
        Message.sample.encode).result = .ok .equivalent ∧
      (ignoreTtls.validate (Message.sample.encode.setIfInBounds 27 0)
        (Message.sample.encode.setIfInBounds 42 128)).result = .ok .equivalent := by
  have hself := (ignoreTtls_equivalence Message.sample.encode #[] #[]).1 ⟨_, Wire.walk_sample⟩
  have hfirst : (ignoreTtls.validate Message.sample.encode
      (Message.sample.encode.setIfInBounds 27 0)).result = .ok .equivalent :=
    validate_eq_equivalent_iff.2 ⟨_, Wire.walk_sample, by decide,
      (Wire.agreeOutside_iff_of_size_eq (by decide)).2 (by decide)⟩
  have hsecond : (ignoreTtls.validate Message.sample.encode
      (Message.sample.encode.setIfInBounds 42 128)).result = .ok .equivalent :=
    validate_eq_equivalent_iff.2 ⟨_, Wire.walk_sample, by decide,
      (Wire.agreeOutside_iff_of_size_eq (by decide)).2 (by decide)⟩
  have hback := ((ignoreTtls_equivalence _ _ #[]).2.1 hfirst).2
  exact ⟨hself, hback, (ignoreTtls_equivalence _ _ _).2.2 hback hsecond⟩

/-! ## The verdict -/

/-- **The whole verdict is blind to TTLs**, on both sides and also if it is a mismatch. -/
theorem ignoreTtls_blind_to_ttls (hwalk : walk expected = .ok ttlOffsets)
    (hsize : expected'.size = expected.size)
    (hexpected : AgreeOutside ttlOffsets expected expected')
    (hsize' : actual'.size = actual.size) (hactual : AgreeOutside ttlOffsets actual actual') :
    ∃ verdict, (ignoreTtls.validate expected actual).result = .ok verdict ∧
      (ignoreTtls.validate expected' actual').result = .ok verdict := by
  obtain ⟨stop, ⟨_, hmax⟩, hchain⟩ := walk_isChain hwalk
  have hcompare : Verdict.compare expected' actual' ttlOffsets =
      Verdict.compare expected actual ttlOffsets :=
    Verdict.compareFrom_congr hchain hmax hsize hsize' (agreeOutside_iff.1 hexpected)
      (agreeOutside_iff.1 hactual)
  refine ⟨Verdict.compare expected actual ttlOffsets, ?_, ?_⟩
  · rw [result_validate_ignoreTtls, hwalk]
    rfl
  · rw [result_validate_ignoreTtls, walk_congr hwalk hexpected hsize, ← hcompare]
    rfl

/-- The sample against itself with another address, and the same with changes in the TTLs of
both. -/
theorem ignoreTtls_blind_to_ttls_sample :
    ∃ verdict, (ignoreTtls.validate Message.sample.encode
        (Message.sample.encode.setIfInBounds 34 2)).result = .ok verdict ∧
      (ignoreTtls.validate (Message.sample.encode.setIfInBounds 27 0)
        ((Message.sample.encode.setIfInBounds 34 2).setIfInBounds 42 128)).result = .ok verdict :=
  ignoreTtls_blind_to_ttls Wire.walk_sample (by decide)
    ((Wire.agreeOutside_iff_of_size_eq (by decide)).2 (by decide)) (by decide)
    ((Wire.agreeOutside_iff_of_size_eq (by decide)).2 (by decide))

end Mode

end DnsMatch
