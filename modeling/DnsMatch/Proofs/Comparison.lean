import DnsMatch.Proofs.Wire.Window
import DnsMatch.Verdict

/-! # Comparing around windows

The comparison goes from window to window, and never looks at the windows as a
whole. `compareFrom_eq_equivalent_iff` says what it amounts to: the windows are
a chain for the expected message, and the messages are of one length and agree
outside them. `compareFrom_congr` says that a verdict of any kind stays the same
if either message is changed inside the windows of a chain. -/

namespace DnsMatch

open Wire (AgreeFrom IsChainFrom agreeFrom_cons_iff)

variable {expected actual expected' actual' : Octets} {ttlOffsets : List Nat}
  {start stop length : Nat}

theorem Segment.startAfter_eq {ttlOffset : Nat} (h : ttlOffset + Wire.ttlLength ≤ Offset.max) :
    Segment.startAfter ttlOffset = ttlOffset + Wire.ttlLength :=
  Nat.min_eq_left h

namespace Verdict

/-! ## One segment -/

theorem ofSegment_eq_equivalent_iff {actualStop : Nat} :
    ofSegment expected actual ⟨start, stop⟩ actualStop = .equivalent ↔
      start ≤ stop ∧ stop ≤ expected.size ∧ actualStop = stop ∧ stop ≤ actual.size ∧
        ∀ i, start ≤ i → i < stop → expected[i]? = actual[i]? := by
  simp only [ofSegment]
  constructor
  · intro h
    split at h
    · next hsame =>
      obtain ⟨part, hpart⟩ := Option.isSome_iff_exists.1 hsame.1
      have hactual := hsame.2.symm.trans hpart
      obtain ⟨hle, hsize, hpartEq⟩ := Octets.slice?_eq_some_iff.1 hpart
      obtain ⟨hle', hsize', hpartEq'⟩ := Octets.slice?_eq_some_iff.1 hactual
      have hextract : expected.extract start stop = actual.extract start actualStop :=
        hpartEq.symm.trans hpartEq'
      have hstop : actualStop = stop := by
        have := congrArg Array.size hextract
        simp only [Array.size_extract] at this
        omega
      rw [hstop] at hextract hsize'
      exact ⟨hle, hsize, hstop, hsize', Octets.agree_of_extract_eq hextract⟩
    · cases h
  · intro ⟨hle, hsize, hstop, hsize', hagree⟩
    have hexpected := Octets.slice?_eq_some_iff.2 ⟨hle, hsize, rfl⟩
    have hactual := Octets.slice?_eq_some_iff.2 ⟨hle, hsize', rfl⟩
    rw [hstop, if_pos]
    rw [hexpected, hactual, Octets.extract_congr hagree]
    exact ⟨rfl, rfl⟩

theorem ofSegment_congr {actualStop : Nat} (hsize : expected'.size = expected.size)
    (hsize' : actual'.size = actual.size)
    (hexpected : ∀ i, start ≤ i → i < stop → expected[i]? = expected'[i]?)
    (hactual : ∀ i, start ≤ i → i < actualStop → actual[i]? = actual'[i]?) :
    ofSegment expected' actual' ⟨start, stop⟩ actualStop =
      ofSegment expected actual ⟨start, stop⟩ actualStop := by
  simp only [ofSegment, Octets.slice?, Octets.clamp, hsize, hsize',
    Octets.extract_congr hexpected, Octets.extract_congr hactual]

/-! ## All segments -/

theorem compareFrom_cons_eq_equivalent_iff {ttlOffset : Nat} :
    compareFrom expected actual start (ttlOffset :: ttlOffsets) = .equivalent ↔
      ofSegment expected actual ⟨start, ttlOffset⟩ ttlOffset = .equivalent ∧
        compareFrom expected actual (Segment.startAfter ttlOffset) ttlOffsets = .equivalent := by
  rw [compareFrom]
  cases ofSegment expected actual ⟨start, ttlOffset⟩ ttlOffset with
  | equivalent => simp
  | different mismatch => simp

/-- What a comparison that finds no mismatch amounts to, as long as windows that begin in the
expected message end at an offset. -/
theorem compareFrom_eq_equivalent_iff
    (h : ∀ ttlOffset ∈ ttlOffsets, ttlOffset ≤ expected.size →
      ttlOffset + Wire.ttlLength ≤ Offset.max) :
    compareFrom expected actual start ttlOffsets = .equivalent ↔
      IsChainFrom expected.size start ttlOffsets ∧ actual.size = expected.size ∧
        AgreeFrom start ttlOffsets expected actual := by
  induction ttlOffsets generalizing start with
  | nil =>
    -- the last segment runs to the end of either message, so it also compares the lengths
    rw [compareFrom, ofSegment_eq_equivalent_iff]
    constructor
    · intro ⟨hle, _, hsize, _, hagree⟩
      refine ⟨hle, hsize, ?_⟩
      intro i hi _
      by_cases hlt : i < expected.size
      · exact hagree i hi hlt
      · rw [Array.getElem?_eq_none (by omega), Array.getElem?_eq_none (by omega)]
    · intro ⟨hle, hsize, hagree⟩
      exact ⟨hle, Nat.le_refl _, hsize, Nat.le_of_eq hsize.symm,
        fun i hi _ => hagree i hi Wire.not_inWindow_nil⟩
  | cons ttlOffset ttlOffsets ih =>
    have hwindow := h ttlOffset List.mem_cons_self
    rw [compareFrom_cons_eq_equivalent_iff, ofSegment_eq_equivalent_iff,
      ih fun ttlOffset hmem => h ttlOffset (List.mem_cons_of_mem _ hmem)]
    constructor
    · intro ⟨⟨hle, hsize, _, _, hagree⟩, hchain, hlength, hrest⟩
      rw [Segment.startAfter_eq (hwindow hsize)] at hchain hrest
      have hchain' : IsChainFrom expected.size start (ttlOffset :: ttlOffsets) := ⟨hle, hchain⟩
      exact ⟨hchain', hlength, (agreeFrom_cons_iff hchain').2 ⟨hagree, hrest⟩⟩
    · intro ⟨hchain, hlength, hagree⟩
      have hle := hchain.2.le_length
      simp only [Wire.ttlLength] at hle
      obtain ⟨hsegment, hrest⟩ := (agreeFrom_cons_iff hchain).1 hagree
      rw [Segment.startAfter_eq (hwindow (by omega))]
      exact ⟨⟨hchain.1, by omega, rfl, by omega, hsegment⟩, hchain.2, hlength, hrest⟩

/-- The windows of a chain have no say in the verdict. -/
theorem compareFrom_congr (hchain : IsChainFrom length start ttlOffsets)
    (hlength : length ≤ Offset.max) (hsize : expected'.size = expected.size)
    (hsize' : actual'.size = actual.size)
    (hexpected : AgreeFrom start ttlOffsets expected expected')
    (hactual : AgreeFrom start ttlOffsets actual actual') :
    compareFrom expected' actual' start ttlOffsets =
      compareFrom expected actual start ttlOffsets := by
  induction ttlOffsets generalizing start with
  | nil =>
    rw [compareFrom, compareFrom, hsize, hsize']
    exact ofSegment_congr hsize hsize' (fun i hi _ => hexpected i hi Wire.not_inWindow_nil)
      (fun i hi _ => hactual i hi Wire.not_inWindow_nil)
  | cons ttlOffset ttlOffsets ih =>
    have hle := hchain.2.le_length
    obtain ⟨hexpectedSegment, hexpectedRest⟩ := (agreeFrom_cons_iff hchain).1 hexpected
    obtain ⟨hactualSegment, hactualRest⟩ := (agreeFrom_cons_iff hchain).1 hactual
    have hstart := Segment.startAfter_eq (Nat.le_trans hle hlength)
    rw [compareFrom, compareFrom, hstart,
      ofSegment_congr hsize hsize' hexpectedSegment hactualSegment,
      ih hchain.2 hexpectedRest hactualRest]

end Verdict

end DnsMatch
