import DnsMatch.Proofs.IgnoringTtls
import DnsMatch.Proofs.Segments
import Mathlib.Order.Nat

/-! # The report of a mismatch points at the first difference

Two messages differ at an offset outside the windows if one of them ends there
and the other does not, or if they have different octets there. A comparison of
walked messages that finds a mismatch reports the segment of the least such
offset, and what it shows of the two messages first differs at that offset
(`Mismatch.PointsAt`). -/

namespace DnsMatch

open Wire (Message walk InWindow AgreeFrom IsSpacedFrom agreeFrom_cons_iff)

variable {expected actual left right : Octets} {ttlOffsets : List Nat}
  {start stop length offset : Nat}

/-- Whether two messages differ at an offset outside the windows. Where only one of them has an
octet, they do. -/
def DifferAt (ttlOffsets : List Nat) (expected actual : Octets) (offset : Nat) : Prop :=
  offset < max expected.size actual.size ∧ ¬InWindow ttlOffsets offset ∧
    (expected.size ≤ offset ∨ actual.size ≤ offset ∨ expected[offset]? ≠ actual[offset]?)

instance : DecidablePred (DifferAt ttlOffsets expected actual) := fun _ =>
  inferInstanceAs (Decidable (_ ∧ _))

theorem Octets.lt_max_size (h : left[offset]? ≠ right[offset]?) :
    offset < max left.size right.size := by
  apply Nat.lt_of_not_le
  intro hle
  apply h
  rw [Array.getElem?_eq_none (by omega), Array.getElem?_eq_none (by omega)]

theorem differAt_iff :
    DifferAt ttlOffsets expected actual offset ↔
      ¬InWindow ttlOffsets offset ∧ expected[offset]? ≠ actual[offset]? := by
  unfold DifferAt
  constructor
  · rintro ⟨hlt, hout, hexpected | hactual | hne⟩
    · refine ⟨hout, ?_⟩
      have hlt' : offset < actual.size := by omega
      simp [hexpected, hlt']
    · refine ⟨hout, ?_⟩
      have hlt' : offset < expected.size := by omega
      simp [hactual, hlt']
    · exact ⟨hout, hne⟩
  · rintro ⟨hout, hne⟩
    exact ⟨Octets.lt_max_size hne, hout, .inr (.inr hne)⟩

/-- What a report has to say if the messages first differ at an offset. Its segment is the one that
the offset is in, or the last one if the expected message ends before. It shows all octets that the
expected message has in the segment, and those of the actual one that there are, for the last
segment up to the end of that message. What is shown first differs at the offset. -/
structure Mismatch.PointsAt (mismatch : Mismatch) (segments : List Segment)
    (expected actual : Octets) (offset : Nat) : Prop where
  segment_mem : mismatch.segment ∈ segments
  contains_iff : offset < expected.size →
    ∀ segment ∈ segments, segment.contains offset = true ↔ segment = mismatch.segment
  segment_last : expected.size ≤ offset → segments.getLast? = some mismatch.segment
  expected_eq :
    expected.slice? mismatch.segment.start mismatch.segment.stop = some mismatch.expected
  actual_eq : mismatch.actual = actual.extract mismatch.segment.start
    (if segments.getLast? = some mismatch.segment then actual.size else mismatch.segment.stop)
  start_le : mismatch.segment.start ≤ offset
  first : IsLeast {i | mismatch.expected[i]? ≠ mismatch.actual[i]?}
    (offset - mismatch.segment.start)

namespace Mismatch.PointsAt

variable {mismatch : Mismatch} {segments : List Segment} {first : Segment}

theorem ne (h : mismatch.PointsAt segments expected actual offset) :
    mismatch.expected ≠ mismatch.actual := by
  intro heq
  exact h.first.1 (by rw [heq])

/-- A segment that ends before the difference has no say in the report. -/
theorem cons (h : mismatch.PointsAt segments expected actual offset)
    (hstop : first.stop ≤ offset) :
    mismatch.PointsAt (first :: segments) expected actual offset := by
  have hlast : (first :: segments).getLast? = segments.getLast? := by
    cases segments with
    | nil => exact absurd h.segment_mem List.not_mem_nil
    | cons second segments => rw [List.getLast?_cons_cons]
  exact {
    segment_mem := List.mem_cons_of_mem _ h.segment_mem
    contains_iff := by
      intro hoffset segment hmem
      have hout : ¬first.contains offset = true := by
        simp only [Segment.contains, Bool.and_eq_true, decide_eq_true_eq]
        omega
      have hin := (h.contains_iff hoffset _ h.segment_mem).2 rfl
      rcases List.mem_cons.1 hmem with rfl | hmem
      · exact ⟨fun h' => absurd h' hout, fun heq => absurd (heq ▸ hin) hout⟩
      · exact h.contains_iff hoffset _ hmem
    segment_last := fun hoffset => hlast.trans (h.segment_last hoffset)
    expected_eq := h.expected_eq
    actual_eq := hlast ▸ h.actual_eq
    start_le := h.start_le
    first := h.first }

end Mismatch.PointsAt

/-! ## One segment -/

/-- What is cut out of two strings at the same place first differs where the strings do. -/
theorem Octets.isLeast_extract {leftStop rightStop : Nat} (hstart : start ≤ offset)
    (hleft : offset < leftStop ∨ leftStop = left.size)
    (hright : offset < rightStop ∨ rightStop = right.size)
    (hne : left[offset]? ≠ right[offset]?)
    (hagree : ∀ i, start ≤ i → i < offset → left[i]? = right[i]?) :
    IsLeast {i | (left.extract start leftStop)[i]? ≠ (right.extract start rightStop)[i]?}
      (offset - start) := by
  have hget : ∀ {octets : Octets} {stop i : Nat}, i ≤ offset - start →
      (offset < stop ∨ stop = octets.size) →
      (octets.extract start stop)[i]? = octets[start + i]? := by
    intro octets stop i hi hstop
    rw [getElem?_extract]
    split
    · rfl
    · exact (Array.getElem?_eq_none (by omega)).symm
  constructor
  · change _ ≠ _
    rw [hget (Nat.le_refl _) hleft, hget (Nat.le_refl _) hright, Nat.add_sub_cancel' hstart]
    exact hne
  · intro i hi
    apply Nat.le_of_not_lt
    intro hlt
    apply hi
    rw [hget (Nat.le_of_lt hlt) hleft, hget (Nat.le_of_lt hlt) hright]
    exact hagree _ (by omega) (by omega)

/-- The report of a segment with others behind it. -/
theorem Mismatch.pointsAt_head {segments : List Segment} (hsegments : segments ≠ [])
    (hbehind : ∀ segment ∈ segments, offset < segment.start) (hsize : stop ≤ expected.size)
    (hstart : start ≤ offset) (hstop : offset < stop) (hne : expected[offset]? ≠ actual[offset]?)
    (hagree : ∀ i, start ≤ i → i < offset → expected[i]? = actual[i]?) :
    Mismatch.PointsAt ⟨⟨start, stop⟩, expected.extract start stop, actual.extract start stop⟩
      (⟨start, stop⟩ :: segments) expected actual offset := by
  have hlast : (⟨start, stop⟩ :: segments).getLast? ≠ some ⟨start, stop⟩ := by
    intro h
    obtain ⟨second, segments, rfl⟩ := List.exists_cons_of_ne_nil hsegments
    rw [List.getLast?_cons_cons] at h
    have := hbehind _ (List.mem_of_getLast? h)
    simp only at this
    omega
  exact {
    segment_mem := List.mem_cons_self
    contains_iff := by
      intro _ segment hmem
      rcases List.mem_cons.1 hmem with rfl | hmem
      · simp [Segment.contains, hstart, hstop]
      · have hlt := hbehind _ hmem
        constructor
        · intro h
          simp only [Segment.contains, Bool.and_eq_true, decide_eq_true_eq] at h
          omega
        · rintro rfl
          simp only at hlt
          omega
    segment_last := fun h => by omega
    expected_eq := Octets.slice?_eq_some_iff.2 ⟨by simp only; omega, hsize, rfl⟩
    actual_eq := by rw [if_neg hlast]
    start_le := hstart
    first := Octets.isLeast_extract hstart (.inl hstop) (.inl hstop) hne hagree }

namespace Verdict

/-- A segment in which the messages differ is not passed over. -/
theorem ofSegment_eq_different {actualStop : Nat} (hlt : start ≤ offset)
    (hle : offset < stop ∨ actualStop ≠ stop) (hne : expected[offset]? ≠ actual[offset]?) :
    ofSegment expected actual ⟨start, stop⟩ actualStop =
      .different ⟨⟨start, stop⟩, expected.extract start stop,
        actual.extract start actualStop⟩ := by
  have hequivalent : ofSegment expected actual ⟨start, stop⟩ actualStop ≠ .equivalent := by
    intro h
    obtain ⟨_, _, hstop, _, hagree⟩ := ofSegment_eq_equivalent_iff.1 h
    exact hne (hagree offset hlt (hle.resolve_right (not_not_intro hstop)))
  simp only [ofSegment] at hequivalent ⊢
  split at hequivalent
  · exact absurd rfl hequivalent
  · next hdiffers => rw [if_neg hdiffers, Octets.clamp, Octets.clamp]

/-! ## All segments -/

/-- In the last segment the messages differ also if one of them goes on where the other ends. -/
theorem last_pointsAt (hlt : start < expected.size) (hstart : start ≤ offset)
    (hne : expected[offset]? ≠ actual[offset]?)
    (hagree : ∀ i, start ≤ i → i < offset → expected[i]? = actual[i]?) :
    ∃ mismatch,
      ofSegment expected actual ⟨start, expected.size⟩ actual.size = .different mismatch ∧
        mismatch.PointsAt [⟨start, expected.size⟩] expected actual offset := by
  have hsome := Octets.lt_max_size hne
  refine ⟨_, ofSegment_eq_different hstart (by omega) hne, ?_⟩
  exact {
    segment_mem := List.mem_singleton_self _
    contains_iff := by
      intro hoffset segment hmem
      obtain rfl := List.mem_singleton.1 hmem
      simp [Segment.contains, hstart, hoffset]
    segment_last := fun _ => rfl
    expected_eq := Octets.slice?_eq_some_iff.2 ⟨Nat.le_of_lt hlt, Nat.le_refl _, rfl⟩
    actual_eq := by simp
    start_le := hstart
    first := Octets.isLeast_extract hstart (.inr rfl) (.inr rfl) hne hagree }

theorem compareFrom_pointsAt (hspaced : IsSpacedFrom stop start ttlOffsets)
    (hsize : stop ≤ expected.size) (hmax : stop ≤ Offset.max) (hstart : start ≤ offset)
    (hout : ¬InWindow ttlOffsets offset) (hne : expected[offset]? ≠ actual[offset]?)
    (hagree : ∀ i, start ≤ i → i < offset → ¬InWindow ttlOffsets i →
      expected[i]? = actual[i]?) :
    ∃ mismatch, compareFrom expected actual start ttlOffsets = .different mismatch ∧
      mismatch.PointsAt (Segment.listFrom expected.size start ttlOffsets) expected actual
        offset := by
  induction ttlOffsets generalizing start with
  | nil =>
    have hlt : start < stop := hspaced
    exact last_pointsAt (by omega) hstart hne fun i hi hi' =>
      hagree i hi hi' Wire.not_inWindow_nil
  | cons ttlOffset ttlOffsets ih =>
    have hlt := hspaced.1
    have hle := hspaced.2.isChainFrom.le_length
    have hbehind : ∀ segment ∈ Segment.listFrom expected.size (ttlOffset + Wire.ttlLength)
        ttlOffsets, ttlOffset + Wire.ttlLength ≤ segment.start :=
      fun segment hmem => (Segment.mem_listFrom hspaced.2 hsize hmax hmem).1
    rw [compareFrom, Segment.listFrom, Segment.startAfter_eq (Nat.le_trans hle hmax)]
    simp only [Wire.inWindow_cons, not_or] at hout hagree
    have hwidth : Wire.ttlLength = 4 := rfl
    have hbefore : ∀ i, start ≤ i → i < offset → i < ttlOffset → expected[i]? = actual[i]? := by
      intro i hi hi' hlt'
      refine hagree i hi hi' ⟨by omega, ?_⟩
      intro hwindow
      have := hspaced.2.isChainFrom.of_inWindow hwindow
      omega
    by_cases hcase : offset < ttlOffset
    · -- the difference is in the segment before the first window
      rw [ofSegment_eq_different hstart (.inl hcase) hne]
      refine ⟨_, rfl, Mismatch.pointsAt_head ?_ ?_ (by omega) hstart hcase hne ?_⟩
      · intro hnil
        simpa [hnil] using
          Segment.length_listFrom expected.size (ttlOffset + Wire.ttlLength) ttlOffsets
      · intro segment hmem
        have := hbehind segment hmem
        omega
      · exact fun i hi hi' => hbefore i hi hi' (by omega)
    · have hequivalent : ofSegment expected actual ⟨start, ttlOffset⟩ ttlOffset = .equivalent := by
        -- the octet before the window is also in the actual message, so that reaches the window
        have hlast := hbefore (ttlOffset - 1) (by omega) (by omega) (by omega)
        rw [Array.getElem?_eq_getElem (by omega : ttlOffset - 1 < expected.size)] at hlast
        have := (Array.getElem?_eq_some_iff.1 hlast.symm).1
        exact ofSegment_eq_equivalent_iff.2 ⟨by omega, by omega, rfl, by omega,
          fun i hi hi' => hbefore i hi (by omega) hi'⟩
      rw [hequivalent]
      obtain ⟨mismatch, hcompare, hpoints⟩ := ih hspaced.2 (by omega) hout.2 fun i hi hi' hout' =>
        hagree i (by omega) hi' ⟨by omega, hout'⟩
      exact ⟨mismatch, hcompare, hpoints.cons (by simp only; omega)⟩

end Verdict

/-! ## The whole comparison -/

namespace Mode

/-- **The report points at the first difference.** Messages that nowhere differ outside the TTL
windows of the expected one are equivalent, and if they do, the report of the comparison points at
the least offset at which they differ. -/
theorem ignoreTtls_points_at_first_difference (hwalk : walk expected = .ok ttlOffsets) :
    ((∀ offset, ¬DifferAt ttlOffsets expected actual offset) →
      (ignoreTtls.validate expected actual).result = .ok .equivalent) ∧
    ((∃ offset, DifferAt ttlOffsets expected actual offset) →
      ∃ offset mismatch, IsLeast {i | DifferAt ttlOffsets expected actual i} offset ∧
        (ignoreTtls.validate expected actual).result = .ok (.different mismatch) ∧
        mismatch.PointsAt (Segment.list expected.size ttlOffsets) expected actual offset ∧
        mismatch.expected ≠ mismatch.actual) := by
  obtain ⟨stop, ⟨hsize, hmax⟩, hspaced⟩ := Wire.walk_isSpaced hwalk
  have hresult : (ignoreTtls.validate expected actual).result =
      .ok (Verdict.compare expected actual ttlOffsets) := by
    rw [result_validate_ignoreTtls, hwalk]
    rfl
  constructor
  · intro hnone
    have hagree : Wire.AgreeOutside ttlOffsets expected actual := by
      intro offset hout
      exact Decidable.of_not_not fun hne => hnone offset (differAt_iff.2 ⟨hout, hne⟩)
    exact validate_eq_equivalent_iff.2
      ⟨ttlOffsets, hwalk, hagree.size_eq hspaced hsize, hagree⟩
  · intro hsome
    obtain ⟨offset, hleast⟩ :
        ∃ offset, IsLeast {i | DifferAt ttlOffsets expected actual i} offset :=
      ⟨_, Nat.isLeast_find hsome⟩
    obtain ⟨hout, hne⟩ := differAt_iff.1 hleast.1
    obtain ⟨mismatch, hcompare, hpoints⟩ :=
      Verdict.compareFrom_pointsAt hspaced hsize hmax (Nat.zero_le _) hout hne
        fun i _ hi hout' => Decidable.of_not_not fun hne' =>
          Nat.not_le_of_lt hi (hleast.2 (differAt_iff.2 ⟨hout', hne'⟩))
    exact ⟨offset, mismatch, hleast, by rw [hresult, Verdict.compare, hcompare],
      hpoints, hpoints.ne⟩

/-- The sample cut off inside its second TTL differs from the whole one. -/
theorem ignoreTtls_points_at_first_difference_sample :
    walk Message.sample.encode = .ok [25, 40] ∧
      ∃ offset mismatch, IsLeast {i | DifferAt [25, 40] Message.sample.encode
          (Message.sample.encode.extract 0 42) i} offset ∧
        (ignoreTtls.validate Message.sample.encode
          (Message.sample.encode.extract 0 42)).result = .ok (.different mismatch) ∧
        mismatch.PointsAt (Segment.list Message.sample.encode.size [25, 40])
          Message.sample.encode (Message.sample.encode.extract 0 42) offset ∧
        mismatch.expected ≠ mismatch.actual :=
  ⟨Wire.walk_sample,
    (ignoreTtls_points_at_first_difference Wire.walk_sample).2 ⟨44, by decide⟩⟩

end Mode

end DnsMatch
