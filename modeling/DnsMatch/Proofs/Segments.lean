import DnsMatch.Proofs.Comparison

/-! # The segments of a walked message

Around the TTLs of a walked message there is always something to compare: each
record has octets before its TTL and behind it. So no segment of such a message
is empty, and each segment starts behind all of those before it. -/

namespace DnsMatch

variable {ttlOffsets : List Nat} {length stop start : Nat}

namespace Wire

variable {octets : Octets}

/-- Whether the windows are a chain with octets before each of them and behind the last one, from
`start` on. -/
def IsSpacedFrom (length start : Nat) : List Nat → Prop
  | [] => start < length
  | ttlOffset :: ttlOffsets =>
    start < ttlOffset ∧ IsSpacedFrom length (ttlOffset + ttlLength) ttlOffsets

theorem IsSpacedFrom.isChainFrom (h : IsSpacedFrom length start ttlOffsets) :
    IsChainFrom length start ttlOffsets := by
  induction ttlOffsets generalizing start with
  | nil => exact Nat.le_of_lt h
  | cons ttlOffset ttlOffsets ih => exact ⟨Nat.le_of_lt h.1, ih h.2⟩

theorem IsSpacedFrom.lt_length (h : IsSpacedFrom length start ttlOffsets) : start < length := by
  induction ttlOffsets generalizing start with
  | nil => exact h
  | cons ttlOffset ttlOffsets ih =>
    have := ih h.2
    have := h.1
    omega

/-- Spaced windows leave out the last octet. -/
theorem IsSpacedFrom.of_inWindow {offset : Nat} (h : IsSpacedFrom length start ttlOffsets)
    (hwindow : InWindow ttlOffsets offset) : offset + 1 < length := by
  induction ttlOffsets generalizing start with
  | nil => exact absurd hwindow not_inWindow_nil
  | cons ttlOffset ttlOffsets ih =>
    have hlt := h.2.lt_length
    rcases inWindow_cons.1 hwindow with hfirst | hrest
    · omega
    · exact ih h.2 hrest

/-- Strings that agree outside spaced windows of one of them also end at the same offset. -/
theorem AgreeOutside.size_eq {left right : Octets} (h : AgreeOutside ttlOffsets left right)
    (hspaced : IsSpacedFrom stop 0 ttlOffsets) (hsize : stop ≤ left.size) :
    right.size = left.size := by
  have hpos := hspaced.lt_length
  have hout : ∀ {offset}, left.size ≤ offset + 1 → ¬InWindow ttlOffsets offset := by
    intro offset hle hwindow
    have := hspaced.of_inWindow hwindow
    omega
  have hend := h left.size (hout (by omega))
  have hlast := h (left.size - 1) (hout (by omega))
  rw [Array.getElem?_eq_none (Nat.le_refl _)] at hend
  rw [Array.getElem?_eq_getElem (by omega : left.size - 1 < left.size)] at hlast
  have hle := Array.getElem?_eq_none_iff.1 hend.symm
  have hlt := (Array.getElem?_eq_some_iff.1 hlast.symm).1
  omega

theorem Record.isSpacedFrom_ttlOffsetsFrom {before start : Nat} {records : List Record}
    (h : before < start) :
    IsSpacedFrom (start + (records.flatMap Record.encode).length) before
      (Record.ttlOffsetsFrom start records) := by
  induction records generalizing before start with
  | nil => simpa [Record.ttlOffsetsFrom, IsSpacedFrom] using h
  | cons record records ih =>
    have hlength := record.length_encode
    refine ⟨by omega, ?_⟩
    rw [List.flatMap_cons, List.length_append, ← Nat.add_assoc]
    -- RDLENGTH is behind the TTL, so the next record does not start there
    exact ih (by simp only [ttlLength]; omega)

theorem walk_isSpaced (h : walk octets = .ok ttlOffsets) :
    ∃ stop, octets.Admits stop ∧ IsSpacedFrom stop 0 ttlOffsets := by
  obtain ⟨_, _, records, _, _, _, _, hstart, _, _, rfl, hstop⟩ := walk_eq_ok_iff_spells.1 h
  refine ⟨_, hstop, Record.isSpacedFrom_ttlOffsetsFrom ?_⟩
  simp only [headerLength] at hstart
  omega

end Wire

namespace Segment

open Wire (IsSpacedFrom)

/-- No segment around spaced windows is empty, and none starts before the first. -/
theorem mem_listFrom (h : IsSpacedFrom stop start ttlOffsets) (hlength : stop ≤ length)
    (hmax : stop ≤ Offset.max) {segment : Segment}
    (hmem : segment ∈ listFrom length start ttlOffsets) :
    start ≤ segment.start ∧ segment.start < segment.stop := by
  induction ttlOffsets generalizing start with
  | nil =>
    have hlt : start < stop := h
    obtain rfl : segment = ⟨start, length⟩ := by simpa [listFrom] using hmem
    exact ⟨Nat.le_refl _, by simp only; omega⟩
  | cons ttlOffset ttlOffsets ih =>
    have hlt := h.1
    have hle := h.2.isChainFrom.le_length
    rw [listFrom, startAfter_eq (Nat.le_trans hle hmax), List.mem_cons] at hmem
    rcases hmem with rfl | hmem
    · exact ⟨Nat.le_refl _, hlt⟩
    · have := ih h.2 hmem
      exact ⟨by omega, this.2⟩

end Segment

end DnsMatch
