import DnsMatch.Proofs.Comparison

/-! # Comparing around any offsets

The comparison takes any list of offsets, also one that no walk finds: in any
order, with windows that overlap or stand beyond the message. It finds two
messages equivalent only if the offsets are a chain for the expected one. In all
other cases it names the first segment in the row that is not the same in both
messages, and shows what there is of it (`Mismatch.NamesFirst`). -/

namespace DnsMatch

open Wire (InWindow Message)

variable {expected actual : Octets} {ttlOffsets : List Nat} {segment : Segment}
  {behind : List Segment} {stop : Nat}

def Segment.SameIn (segment : Segment) (expected actual : Octets) (stop : Nat) : Prop :=
  ∃ part, expected.slice? segment.start segment.stop = some part ∧
    actual.slice? segment.start stop = some part

/-- Where a segment with others behind it ends in the actual message. The last segment takes in all
that is left there. -/
def Segment.actualStop (segment : Segment) (behind : List Segment) (actual : Octets) : Nat :=
  match behind with
  | [] => actual.size
  | _ :: _ => segment.stop

/-- Whether `part` is what there is of the octets at the offsets `[start, stop)`. It is cut out
within the bounds of the string, and it is empty if the range is. -/
structure Octets.IsPresent (octets : Octets) (start stop : Nat) (part : Octets) : Prop where
  cut : octets.slice? (min start (min stop octets.size)) (min stop octets.size) = some part
  getElem?_eq : ∀ i, part[i]? = if start + i < stop then octets[start + i]? else none
  eq_empty : stop ≤ start → part = #[]

/-- What a report has to say in a row of segments. Those before the one it names are the same in
both messages, that one is not, and of that one it shows what there is in either message. -/
structure Mismatch.NamesFirst (mismatch : Mismatch) (before behind : List Segment)
    (expected actual : Octets) : Prop where
  same_before : ∀ segment ∈ before, segment.SameIn expected actual segment.stop
  differs :
    ¬mismatch.segment.SameIn expected actual (mismatch.segment.actualStop behind actual)
  expected_shown :
    expected.IsPresent mismatch.segment.start mismatch.segment.stop mismatch.expected
  actual_shown : actual.IsPresent mismatch.segment.start
    (mismatch.segment.actualStop behind actual) mismatch.actual

theorem Octets.isPresent_clamp (octets : Octets) (start stop : Nat) :
    octets.IsPresent start stop (octets.clamp start stop) where
  cut := by
    refine slice?_eq_some_iff.2 ⟨by omega, by omega, Array.ext_getElem? fun i => ?_⟩
    rw [clamp, getElem?_extract, getElem?_extract]
    by_cases hlt : start + i < min stop octets.size
    · rw [if_pos (by omega), if_pos (by omega), Nat.min_eq_left (by omega)]
    · rw [if_neg (show ¬min start _ + i < _ by omega)]
      split
      · exact Array.getElem?_eq_none (by omega)
      · rfl
  getElem?_eq := getElem?_extract octets start stop
  eq_empty := Array.extract_empty_of_stop_le_start

/-- Where other segments follow, a segment ends at the same offset in both messages. -/
theorem Segment.actualStop_listFrom (length start : Nat) :
    segment.actualStop (listFrom length start ttlOffsets) actual = segment.stop := by
  cases ttlOffsets <;> rfl

namespace Verdict

/-! ## One segment -/

theorem ofSegment_eq_equivalent_iff_sameIn :
    ofSegment expected actual segment stop = .equivalent ↔
      segment.SameIn expected actual stop := by
  simp only [ofSegment, Segment.SameIn]
  constructor
  · intro h
    split at h
    · next hsame =>
      obtain ⟨part, hpart⟩ := Option.isSome_iff_exists.1 hsame.1
      exact ⟨part, hpart, hsame.2.symm.trans hpart⟩
    · cases h
  · intro h
    obtain ⟨part, hexpected, hactual⟩ := h
    rw [hexpected, hactual, if_pos ⟨rfl, rfl⟩]

/-- What is said of a segment that is not the same in both messages. -/
theorem exists_namesFirst_ofSegment (hstop : segment.actualStop behind actual = stop)
    (h : ¬segment.SameIn expected actual stop) :
    ∃ mismatch, ofSegment expected actual segment stop = .different mismatch ∧
      mismatch.segment = segment ∧ mismatch.NamesFirst [] behind expected actual := by
  subst hstop
  refine ⟨⟨segment, expected.clamp segment.start segment.stop,
    actual.clamp segment.start (segment.actualStop behind actual)⟩, ?_, rfl, ?_⟩
  · rw [← ofSegment_eq_equivalent_iff_sameIn] at h
    simp only [ofSegment] at h ⊢
    split at h
    · exact absurd rfl h
    · next hdiffers => rw [if_neg hdiffers]
  · exact {
      same_before := by simp
      differs := h
      expected_shown := expected.isPresent_clamp _ _
      actual_shown := actual.isPresent_clamp _ _ }

/-! ## All segments -/

/-- A comparison that finds a difference names the first segment in the row that is not the same. -/
theorem exists_namesFirst {start : Nat}
    (h : compareFrom expected actual start ttlOffsets ≠ .equivalent) :
    ∃ mismatch before behind,
      compareFrom expected actual start ttlOffsets = .different mismatch ∧
        Segment.listFrom expected.size start ttlOffsets = before ++ mismatch.segment :: behind ∧
        mismatch.NamesFirst before behind expected actual := by
  induction ttlOffsets generalizing start with
  | nil =>
    rw [compareFrom, Ne, ofSegment_eq_equivalent_iff_sameIn] at h
    have hlast : Segment.actualStop ⟨start, expected.size⟩ [] actual = actual.size := rfl
    obtain ⟨mismatch, hsegment, heq, hnames⟩ := exists_namesFirst_ofSegment hlast h
    exact ⟨mismatch, [], [], hsegment, by rw [heq]; rfl, hnames⟩
  | cons ttlOffset ttlOffsets ih =>
    rw [Ne, compareFrom_cons_eq_equivalent_iff, ofSegment_eq_equivalent_iff_sameIn] at h
    rw [compareFrom, Segment.listFrom]
    by_cases hsame : Segment.SameIn ⟨start, ttlOffset⟩ expected actual ttlOffset
    · obtain ⟨mismatch, before, behind, hcompare, hlist, hnames⟩ := ih fun hrest => h ⟨hsame, hrest⟩
      rw [ofSegment_eq_equivalent_iff_sameIn.2 hsame]
      refine ⟨mismatch, ⟨start, ttlOffset⟩ :: before, behind, hcompare, by rw [hlist]; rfl, ?_⟩
      exact { hnames with same_before := List.forall_mem_cons.2 ⟨hsame, hnames.same_before⟩ }
    · obtain ⟨mismatch, hsegment, heq, hnames⟩ :=
        exists_namesFirst_ofSegment (Segment.actualStop_listFrom _ _) hsame
      exact ⟨mismatch, [], _, by rw [hsegment], by rw [heq]; rfl, hnames⟩

/-! ## The whole comparison -/

/-- **The comparison is exact for any offsets**, in any order and however large, if the expected
message has less than `2 ^ 63` octets, as any in memory has. It finds the messages equivalent
exactly if the windows are a chain for the expected message, and the messages have one length and
the same octets outside the windows. Otherwise it names the first segment in the row that cannot be
cut out of the expected message or is not the same in the actual one, and shows what there is of
it. -/
theorem compare_exact_for_any_offsets (expected actual : Octets)
    (hsize : expected.size ≤ Offset.max / 2) (ttlOffsets : List Nat) :
    (compare expected actual ttlOffsets = .equivalent ↔
      Wire.IsChain expected.size ttlOffsets ∧ actual.size = expected.size ∧
        ∀ i, i < expected.size → ¬InWindow ttlOffsets i → expected[i]? = actual[i]?) ∧
    (compare expected actual ttlOffsets ≠ .equivalent →
      ∃ mismatch before behind, compare expected actual ttlOffsets = .different mismatch ∧
        Segment.list expected.size ttlOffsets = before ++ mismatch.segment :: behind ∧
        mismatch.NamesFirst before behind expected actual) := by
  refine ⟨?_, exists_namesFirst⟩
  have hmax : Wire.ttlLength ≤ Offset.max / 2 := by decide
  have hwindow : ∀ ttlOffset ∈ ttlOffsets, ttlOffset ≤ expected.size →
      ttlOffset + Wire.ttlLength ≤ Offset.max := by
    intro ttlOffset _ hle
    omega
  rw [compare, compareFrom_eq_equivalent_iff hwindow, ← Wire.agreeOutside_iff]
  exact and_congr_right fun _ => and_congr_right fun hlength =>
    Wire.agreeOutside_iff_of_size_eq hlength

/-- The sample against itself: with its own offsets it is equivalent, and not with these in the
other order, nor with the largest offset. -/
theorem compare_exact_for_any_offsets_sample :
    compare Message.sample.encode Message.sample.encode [25, 40] = .equivalent ∧
      ∀ ttlOffsets ∈ [[40, 25], [Offset.max]], ∃ mismatch before behind,
        compare Message.sample.encode Message.sample.encode ttlOffsets = .different mismatch ∧
          Segment.list Message.sample.encode.size ttlOffsets =
            before ++ mismatch.segment :: behind ∧
          mismatch.NamesFirst before behind Message.sample.encode Message.sample.encode := by
  have hsize : Message.sample.encode.size = 47 := by decide
  have hexact := compare_exact_for_any_offsets Message.sample.encode Message.sample.encode
    (by decide)
  refine ⟨(hexact [25, 40]).1.2 ⟨?_, rfl, fun _ _ _ => rfl⟩, ?_⟩
  · simp [Wire.IsChain, Wire.IsChainFrom, Wire.ttlLength, hsize]
  · intro ttlOffsets hmem
    refine (hexact ttlOffsets).2 fun h => ?_
    have hchain := ((hexact ttlOffsets).1.1 h).1
    simp only [List.mem_cons, List.not_mem_nil, or_false] at hmem
    rcases hmem with rfl | rfl
    · simp [Wire.IsChain, Wire.IsChainFrom, Wire.ttlLength] at hchain
    · simp [Wire.IsChain, Wire.IsChainFrom, Wire.ttlLength, hsize, Offset.max,
        UInt64.size] at hchain

end Verdict

end DnsMatch
