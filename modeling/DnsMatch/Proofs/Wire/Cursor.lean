import DnsMatch.Proofs.Chain
import DnsMatch.Proofs.Spelling
import DnsMatch.Wire.Cursor

/-! # What a read at a cursor gives

A read succeeds exactly if the string admits a cursor behind what is read, and
then the number it gives is the one that is spelled at the old cursor. -/

namespace DnsMatch

/-- Whether a cursor can stand at an offset: it is in the string or at its end, and an offset. -/
def Octets.Admits (octets : Octets) (cursor : Nat) : Prop :=
  cursor ≤ octets.size ∧ cursor ≤ Offset.max

theorem Octets.Admits.mono {octets : Octets} {cursor cursor' : Nat} (h : octets.Admits cursor')
    (hle : cursor ≤ cursor') : octets.Admits cursor :=
  ⟨Nat.le_trans hle h.1, Nat.le_trans hle h.2⟩

namespace Wire

variable {octets : Octets} {cursor length stop next : Nat} {field : Field}

theorem skip_eq_ok_iff :
    skip octets cursor length field = .ok stop ↔
      stop = cursor + length ∧ octets.Admits (cursor + length) := by
  unfold skip Octets.Admits
  cases hsum : Offset.add? cursor length with
  | none =>
    have hover : ¬cursor + length ≤ Offset.max := by
      intro hle
      rw [Offset.add?_eq_some_iff.2 ⟨rfl, hle⟩] at hsum
      cases hsum
    simp [hover]
  | some sum =>
    obtain ⟨rfl, hle⟩ := Offset.add?_eq_some_iff.1 hsum
    by_cases hsize : cursor + length ≤ octets.size
    · simp [hsize, hle, eq_comm]
    · simp [hsize]

/-- A read of so many octets succeeds if they are there, and gives what `written` says of them. -/
theorem map_skip_eq_ok_iff {α : Type} {value : α} {read : α} {written : List UInt8}
    (h : octets.Admits (cursor + length) → (octets.Spells cursor written ↔ read = value)) :
    (skip octets cursor length field).map (fun stop => (read, stop)) = .ok (value, next) ↔
      octets.Spells cursor written ∧ next = cursor + length ∧
        octets.Admits (cursor + length) := by
  simp only [map_eq_ok_iff, skip_eq_ok_iff, Prod.mk.injEq]
  constructor
  · intro ⟨stop, ⟨hstop, hadmits⟩, hread, hnext⟩
    exact ⟨(h hadmits).2 hread, hnext.symm.trans hstop, hadmits⟩
  · intro ⟨hspells, hnext, hadmits⟩
    exact ⟨_, ⟨rfl, hadmits⟩, (h hadmits).1 hspells, hnext.symm⟩

theorem readU8_eq_ok_iff {value : UInt8} :
    readU8 octets cursor field = .ok (value, next) ↔
      octets.Spells cursor [value] ∧ next = cursor + 1 ∧ octets.Admits (cursor + 1) :=
  map_skip_eq_ok_iff fun hadmits => Octets.spells_singleton_iff hadmits.1

theorem readU16_eq_ok_iff {value : UInt16} :
    readU16 octets cursor field = .ok (value, next) ↔
      octets.Spells cursor (Octets.ofU16 value) ∧ next = cursor + 2 ∧
        octets.Admits (cursor + 2) :=
  map_skip_eq_ok_iff fun hadmits => Octets.spells_ofU16_iff hadmits.1

theorem readU32_eq_ok_iff {value : UInt32} :
    readU32 octets cursor field = .ok (value, next) ↔
      octets.Spells cursor (Octets.ofU32 value) ∧ next = cursor + 4 ∧
        octets.Admits (cursor + 4) :=
  map_skip_eq_ok_iff fun hadmits => Octets.spells_ofU32_iff hadmits.1

/-! ## Reading what is there -/

section There

variable (hmax : octets.size ≤ Offset.max)

include hmax

theorem skip_of_le (h : cursor + length ≤ octets.size) :
    skip octets cursor length field = .ok (cursor + length) :=
  skip_eq_ok_iff.2 ⟨rfl, h, Nat.le_trans h hmax⟩

theorem readU8_of_le (h : cursor + 1 ≤ octets.size) :
    readU8 octets cursor field = .ok (octets.octetAt cursor, cursor + 1) := by
  rw [readU8, skip_of_le hmax h]
  rfl

theorem readU16_of_le (h : cursor + 2 ≤ octets.size) :
    readU16 octets cursor field = .ok (octets.u16At cursor, cursor + 2) := by
  rw [readU16, skip_of_le hmax h]
  rfl

theorem readU32_of_le (h : cursor + 4 ≤ octets.size) :
    readU32 octets cursor field = .ok (octets.u32At cursor, cursor + 4) := by
  rw [readU32, skip_of_le hmax h]
  rfl

end There

/-! ## Reading what is cut off -/

section Cut

variable {cut : Octets}

theorem skip_cut (h : cut.size < cursor + length) :
    skip cut cursor length field = .error ⟨field, cursor⟩ := by
  unfold skip
  cases hsum : Offset.add? cursor length with
  | none => rfl
  | some stop =>
    obtain ⟨rfl, _⟩ := Offset.add?_eq_some_iff.1 hsum
    exact if_neg (by omega)

theorem readU8_cut (h : cut.size < cursor + 1) :
    readU8 cut cursor field = .error ⟨field, cursor⟩ := by
  rw [readU8, skip_cut h]
  rfl

theorem readU16_cut (h : cut.size < cursor + 2) :
    readU16 cut cursor field = .error ⟨field, cursor⟩ := by
  rw [readU16, skip_cut h]
  rfl

theorem readU32_cut (h : cut.size < cursor + 4) :
    readU32 cut cursor field = .error ⟨field, cursor⟩ := by
  rw [readU32, skip_cut h]
  rfl

end Cut

theorem eq_of_skip_eq_error (h : skip octets cursor length field = .error truncation) :
    truncation = ⟨field, cursor⟩ := by
  unfold skip at h
  split at h
  · split at h
    · cases h
    · exact (Except.error.inj h).symm
  · exact (Except.error.inj h).symm

/-- A field of which a part is read before it is passed is passed all the same. -/
theorem skip_bind_skip {α : Type} {length' : Nat} (hle : length ≤ length')
    (next : Nat → Except Truncation α) :
    (skip octets cursor length field >>= fun _ => skip octets cursor length' field >>= next) =
      (skip octets cursor length' field >>= next) := by
  cases hpart : skip octets cursor length field with
  | ok stop => rfl
  | error truncation =>
    cases hwhole : skip octets cursor length' field with
    | ok stop =>
      have hadmits := (skip_eq_ok_iff.1 hwhole).2.mono (Nat.add_le_add_left hle cursor)
      rw [skip_eq_ok_iff.2 ⟨rfl, hadmits⟩] at hpart
      cases hpart
    | error truncation' =>
      rw [eq_of_skip_eq_error hpart, eq_of_skip_eq_error hwhole]
      rfl

/-- A read fails only for want of octets, and blames the field at the cursor. -/
theorem skip_eq_error_iff (hmax : octets.size ≤ Offset.max) {truncation : Truncation} :
    skip octets cursor length field = .error truncation ↔
      truncation = ⟨field, cursor⟩ ∧ octets.size < cursor + length := by
  by_cases hcut : octets.size < cursor + length
  · rw [skip_cut hcut]
    simp [hcut, eq_comm]
  · rw [skip_of_le hmax (by omega)]
    simp [hcut]

theorem readU8_eq_error_iff (hmax : octets.size ≤ Offset.max) {truncation : Truncation} :
    readU8 octets cursor field = .error truncation ↔
      truncation = ⟨field, cursor⟩ ∧ octets.size < cursor + 1 := by
  rw [← skip_eq_error_iff hmax, readU8]
  cases skip octets cursor 1 field <;> simp [Except.map]

end Wire

end DnsMatch
