import DnsMatch.Proofs.Wire.Cursor
import DnsMatch.Session

/-! # Numbers at a cursor

A number of so many octets is written with the most significant octet first
(`Octets.bigEndian`). What a read gives is the number that is written at the
cursor, and a number that is written there is read back (`ReadsNumbers`).
Whether a read succeeds is a question of unbounded numbers: where the sum of a
cursor and a length is beyond every offset, it is past the end of every string
all the more (`skip_eq_ite`). -/

namespace DnsMatch

/-! ## Numbers as octets -/

namespace Octets

/-- The last `width` octets of a number, the most significant one first. -/
def bigEndian : Nat → Nat → List UInt8
  | 0, _ => []
  | width + 1, value => bigEndian width (value / 256) ++ [UInt8.ofNat (value % 256)]

@[simp] theorem length_bigEndian (width value : Nat) : (bigEndian width value).length = width := by
  induction width generalizing value with
  | zero => rfl
  | succ width ih => rw [bigEndian, List.length_append, ih, List.length_singleton]

theorem bigEndian_u8 (value : UInt8) : bigEndian 1 value.toNat = [value] := by
  have := value.toNat_lt
  simp only [bigEndian, List.nil_append]
  rw [Nat.mod_eq_of_lt (by omega), UInt8.ofNat_toNat]

theorem bigEndian_u16 (value : UInt16) : bigEndian 2 value.toNat = ofU16 value := by
  have := value.toNat_lt
  simp only [bigEndian, ofU16, List.nil_append, List.singleton_append]
  rw [Nat.mod_eq_of_lt (a := value.toNat / 256) (by omega)]

theorem bigEndian_u32 (value : UInt32) : bigEndian 4 value.toNat = ofU32 value := by
  have := value.toNat_lt
  have hhigh : (UInt16.ofNat (value.toNat / 65536)).toNat = value.toNat / 65536 := by
    rw [UInt16.toNat_ofNat']
    omega
  have hlow : (UInt16.ofNat (value.toNat % 65536)).toNat = value.toNat % 65536 := by
    rw [UInt16.toNat_ofNat']
    omega
  simp only [bigEndian, ofU32, ofU16, hhigh, hlow, List.nil_append, List.cons_append,
    List.cons.injEq, and_true]
  refine ⟨?_, ?_, ?_, ?_⟩ <;> congr 1 <;> omega

variable {octets : Octets} {offset length : Nat} {part : List UInt8}

theorem toList_extract_eq_iff (hlength : part.length = length) (h : offset + length ≤ octets.size) :
    (octets.extract offset (offset + length)).toList = part ↔ octets.Spells offset part := by
  have hslice : octets.slice? offset (offset + length) = some part.toArray ↔ _ :=
    slice?_eq_some_toArray_iff
  rw [slice?_eq_some_iff] at hslice
  simp only [h, hlength, Nat.le_add_right, true_and, and_true] at hslice
  rw [← hslice, ← Array.toList_inj, eq_comm]

end Octets

/-! ## Overwriting -/

namespace Session.Edit

variable {octets : Octets} {offset : Nat} {part : List UInt8}

theorem size_apply_overwrite (h : offset + part.length ≤ octets.size) :
    ((overwrite offset part.toArray).apply octets).size = octets.size := by
  simp only [apply, Octets.clamp, Array.size_append, Array.size_extract, List.size_toArray]
  omega

theorem spells_apply_overwrite (h : offset + part.length ≤ octets.size) :
    Octets.Spells ((overwrite offset part.toArray).apply octets) offset part := by
  have hbefore : (octets.clamp 0 offset).size = offset := by
    simp only [Octets.clamp, Array.size_extract]
    omega
  have hpart : Octets.Spells (part.toArray ++
      octets.clamp (offset + part.toArray.size) octets.size) 0 part :=
    (Octets.agreeBelow_append part.toArray _).spells (Octets.spells_toArray part) (by simp)
  have := (Octets.spells_append_add (octets.clamp 0 offset) _ 0 part).2 hpart
  rwa [hbefore, Nat.add_zero, ← Array.append_assoc] at this

end Session.Edit

/-! ## Reading numbers -/

namespace Wire

open Octets (bigEndian)

variable {octets : Octets} {width : Nat}

/-- Passing octets is a matter of the sum alone, whether or not that is an offset. -/
theorem skip_eq_ite (hmax : octets.size ≤ Offset.max) (cursor length : Nat) (field : Field) :
    skip octets cursor length field =
      if cursor + length ≤ octets.size then .ok (cursor + length) else .error ⟨field, cursor⟩ := by
  split
  · next h => exact skip_of_le hmax h
  · next h => exact skip_cut (Nat.lt_of_not_le h)

/-- Whether a reader of a string reads the numbers of so many octets: it succeeds where that many
octets are left, gives the number that is written in them and the cursor just past them, and else
blames the field at the unchanged cursor. -/
structure ReadsNumbers {α : Type} (width : Nat) (toNat : α → Nat)
    (read : Octets → Nat → Field → Except Truncation (α × Nat)) (octets : Octets) : Prop where
  succeeds : ∀ cursor field, cursor + width ≤ octets.size →
    ∃ value, read octets cursor field = .ok (value, cursor + width)
  ok_iff : ∀ cursor field value next, read octets cursor field = .ok (value, next) ↔
    cursor + width ≤ octets.size ∧ next = cursor + width ∧
      (octets.extract cursor (cursor + width)).toList = bigEndian width (toNat value)
  overwritten : ∀ cursor field value, cursor + width ≤ octets.size →
    read ((Session.Edit.overwrite cursor (bigEndian width (toNat value)).toArray).apply octets)
      cursor field = .ok (value, cursor + width)
  fails : ∀ cursor field, octets.size < cursor + width →
    read octets cursor field = .error ⟨field, cursor⟩

/-- A reader that passes the octets and looks up what is spelled there reads numbers. -/
theorem readsNumbers_of_spells {α : Type} {toNat : α → Nat} {readAt : Octets → Nat → α}
    (hspells : ∀ {octets : Octets} {cursor : Nat} {value : α}, cursor + width ≤ octets.size →
      (octets.Spells cursor (bigEndian width (toNat value)) ↔ readAt octets cursor = value))
    (hmax : octets.size ≤ Offset.max) :
    ReadsNumbers width toNat (fun octets cursor field =>
      (skip octets cursor width field).map fun stop => (readAt octets cursor, stop)) octets where
  succeeds cursor field h := by
    rw [skip_of_le hmax h]
    exact ⟨readAt octets cursor, rfl⟩
  ok_iff cursor field value next := by
    have hadmits : octets.Admits (cursor + width) ↔ cursor + width ≤ octets.size :=
      and_iff_left_of_imp fun h => Nat.le_trans h hmax
    rw [map_skip_eq_ok_iff fun h => hspells h.1, hadmits]
    constructor
    · intro ⟨hspelled, hnext, h⟩
      exact ⟨h, hnext, (Octets.toList_extract_eq_iff (by simp) h).2 hspelled⟩
    · intro ⟨h, hnext, hextract⟩
      exact ⟨(Octets.toList_extract_eq_iff (by simp) h).1 hextract, hnext, h⟩
  overwritten cursor field value h := by
    have hlength : cursor + (bigEndian width (toNat value)).length ≤ octets.size := by simpa using h
    -- overwriting keeps the length, so what can be read at the cursor can be read there afterwards
    have hsize := Session.Edit.size_apply_overwrite hlength
    have hspelled := Session.Edit.spells_apply_overwrite hlength
    rw [← hsize] at h hmax
    rw [skip_of_le hmax h, (hspells h).1 hspelled]
    rfl
  fails cursor field h := by
    rw [skip_cut h]
    rfl

section Readers

variable (hmax : octets.size ≤ Offset.max)

include hmax

theorem readsNumbers_readU8 : ReadsNumbers 1 UInt8.toNat readU8 octets := by
  refine readsNumbers_of_spells (fun {octets cursor value} h => ?_) hmax
  rw [Octets.bigEndian_u8]
  exact Octets.spells_singleton_iff h

theorem readsNumbers_readU16 : ReadsNumbers 2 UInt16.toNat readU16 octets := by
  refine readsNumbers_of_spells (fun {octets cursor value} h => ?_) hmax
  rw [Octets.bigEndian_u16]
  exact Octets.spells_ofU16_iff h

theorem readsNumbers_readU32 : ReadsNumbers 4 UInt32.toNat readU32 octets := by
  refine readsNumbers_of_spells (fun {octets cursor value} h => ?_) hmax
  rw [Octets.bigEndian_u32]
  exact Octets.spells_ofU32_iff h

end Readers

/-- **Reading is exact for all cursors and lengths.** In a string with no more octets than there are
offsets, octets are passed if and only if the sum of cursor and length is in the string, and that
sum is the new cursor; numbers of one, two and four octets are read under the same condition, each
as the one that is written there. In all other cases, also where the sum is beyond the largest
offset, the failure carries the field and the cursor as they were given. -/
theorem reads_exact_at_all_cursors {octets : Octets} (hmax : octets.size ≤ Offset.max) :
    (∀ (cursor length : Nat) (field : Field), skip octets cursor length field =
      if cursor + length ≤ octets.size then .ok (cursor + length) else .error ⟨field, cursor⟩) ∧
    ReadsNumbers 1 UInt8.toNat readU8 octets ∧
    ReadsNumbers 2 UInt16.toNat readU16 octets ∧
    ReadsNumbers 4 UInt32.toNat readU32 octets :=
  ⟨skip_eq_ite hmax, readsNumbers_readU8 hmax, readsNumbers_readU16 hmax,
    readsNumbers_readU32 hmax⟩

/-- Three octets: a sum of cursor and length that is 0 in 64 bits is past the end, and a number is
read behind the first octet, also once another one is written there. -/
theorem reads_exact_at_all_cursors_sample :
    (#[0x00, 0x01, 0x02] : Octets).size ≤ Offset.max ∧
      skip #[0x00, 0x01, 0x02] 1 Offset.max .rdata = .error ⟨.rdata, 1⟩ ∧
      skip #[0x00, 0x01, 0x02] 3 0 .rdata = .ok 3 ∧
      readU8 #[0x00, 0x01, 0x02] Offset.max .labelLength = .error ⟨.labelLength, Offset.max⟩ ∧
      readU16 #[0x00, 0x01, 0x02] 1 .rdlength = .ok (0x0102, 3) ∧
      readU16 #[0x00, 0xab, 0xcd] 1 .rdlength = .ok (0xabcd, 3) ∧
      readU32 #[0x00, 0x01, 0x02] 0 .ttl = .error ⟨.ttl, 0⟩ := by
  have hmax : (#[0x00, 0x01, 0x02] : Octets).size ≤ Offset.max := by decide
  obtain ⟨hskip, hu8, hu16, hu32⟩ := reads_exact_at_all_cursors hmax
  refine ⟨hmax, (hskip _ _ _).trans (if_neg (by decide)),
    (hskip _ _ _).trans (if_pos (by decide)), hu8.fails _ _ (by decide),
    (hu16.ok_iff _ _ _ _).2 (by decide), hu16.overwritten 1 .rdlength 0xabcd (by decide),
    hu32.fails _ _ (by decide)⟩

end Wire

end DnsMatch
