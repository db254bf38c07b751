import DnsMatch.Octets

/-! # What stands at an offset

`octets.Spells offset part` says that the octets from `offset` on begin with
`part`. What a writer puts one behind the other is spelled at consecutive
offsets (`spells_append`), and only the octets of the part itself have a say
in whether it is spelled (`spells_congr`). The numbers of a message are spelled
as `ofU16` and `ofU32` write them exactly where `u16At` and `u32At` read them. -/

namespace DnsMatch.Octets

variable {octets left right : Octets} {offset start stop : Nat} {part rest : List UInt8}

/-! ## Parts that are cut out -/

theorem getElem?_extract (octets : Octets) (start stop i : Nat) :
    (octets.extract start stop)[i]? = if start + i < stop then octets[start + i]? else none := by
  rw [Array.getElem?_extract]
  by_cases hlt : start + i < octets.size
  · by_cases hstop : start + i < stop
    · rw [if_pos (by omega), if_pos hstop]
    · rw [if_neg (by omega), if_neg hstop]
  · rw [Array.getElem?_eq_none (Nat.le_of_not_lt hlt), if_neg (by omega), ite_self]

theorem extract_congr (h : ∀ i, start ≤ i → i < stop → left[i]? = right[i]?) :
    left.extract start stop = right.extract start stop := by
  apply Array.ext_getElem?
  intro i
  rw [getElem?_extract, getElem?_extract]
  split
  · next hlt => exact h (start + i) (by omega) hlt
  · rfl

theorem agree_of_extract_eq (h : left.extract start stop = right.extract start stop) :
    ∀ i, start ≤ i → i < stop → left[i]? = right[i]? := by
  intro i hi hi'
  have hget := congrArg (fun part => part[i - start]?) h
  simp only [getElem?_extract] at hget
  rw [if_pos (by omega), if_pos (by omega), Nat.add_sub_cancel' hi] at hget
  exact hget

/-! ## Parts that are spelled -/

/-- Whether the octets from `offset` on begin with `part`. -/
def Spells (octets : Octets) (offset : Nat) (part : List UInt8) : Prop :=
  ∀ i, i < part.length → octets[offset + i]? = part[i]?

@[simp] theorem spells_nil : octets.Spells offset [] := by
  intro i hi
  simp at hi

@[simp] theorem spells_cons {octet : UInt8} :
    octets.Spells offset (octet :: rest) ↔
      octets[offset]? = some octet ∧ octets.Spells (offset + 1) rest := by
  constructor
  · intro h
    refine ⟨by simpa using h 0 (by simp), ?_⟩
    intro i hi
    have := h (i + 1) (by simpa using hi)
    simpa [Nat.add_assoc, Nat.add_comm 1 i] using this
  · rintro ⟨hfirst, hrest⟩ i hi
    cases i with
    | zero => simpa using hfirst
    | succ i =>
      have := hrest i (by simpa using hi)
      simpa [Nat.add_assoc, Nat.add_comm 1 i] using this

theorem Spells.head {octet : UInt8} (h : octets.Spells offset (octet :: rest)) :
    octets.Spells offset [octet] := by
  rw [spells_cons] at h ⊢
  exact ⟨h.1, spells_nil⟩

@[simp] theorem spells_append :
    octets.Spells offset (part ++ rest) ↔
      octets.Spells offset part ∧ octets.Spells (offset + part.length) rest := by
  induction part generalizing offset with
  | nil => simp
  | cons octet part ih =>
    simp only [List.cons_append, spells_cons, ih, List.length_cons, and_assoc]
    rw [show offset + 1 + part.length = offset + (part.length + 1) by omega]

/-- Only the octets of a part have a say in whether it is spelled. -/
theorem spells_congr
    (h : ∀ i, offset ≤ i → i < offset + part.length → left[i]? = right[i]?) :
    left.Spells offset part ↔ right.Spells offset part := by
  unfold Spells
  constructor
  · intro hs i hi
    rw [← h (offset + i) (by omega) (by omega)]
    exact hs i hi
  · intro hs i hi
    rw [h (offset + i) (by omega) (by omega)]
    exact hs i hi

/-- Whatever stands between two offsets is spelled there. -/
theorem exists_spells {length : Nat} (h : offset + length ≤ octets.size) :
    ∃ part, part.length = length ∧ octets.Spells offset part := by
  refine ⟨(octets.extract offset (offset + length)).toList, ?_, ?_⟩
  · simp only [Array.length_toList, Array.size_extract]
    omega
  · intro i hi
    have hi' : i < length := by
      simp only [Array.length_toList, Array.size_extract] at hi
      omega
    rw [Array.getElem?_toList, getElem?_extract, if_pos (by omega)]

/-- What is spelled is there in full. -/
theorem Spells.le_size (h : octets.Spells offset part) (hpos : 0 < part.length) :
    offset + part.length ≤ octets.size := by
  have hlast := h (part.length - 1) (by omega)
  rw [List.getElem?_eq_getElem (by omega)] at hlast
  have hlt := (Array.getElem?_eq_some_iff.1 hlast).1
  omega

/-- Cutting out a part is finding it spelled, as far as the part goes. -/
theorem slice?_eq_some_toArray_iff :
    octets.slice? offset stop = some part.toArray ↔
      octets.Spells offset part ∧ stop = offset + part.length ∧ stop ≤ octets.size := by
  rw [slice?_eq_some_iff]
  constructor
  · intro ⟨hle, hsize, hpart⟩
    have hlength : part.length = stop - offset := by
      have := congrArg Array.size hpart
      simp only [List.size_toArray, Array.size_extract] at this
      omega
    refine ⟨fun i hi => ?_, by omega, hsize⟩
    have hget := congrArg (·[i]?) hpart
    simp only [List.getElem?_toArray, getElem?_extract] at hget
    rw [hget, if_pos (by omega)]
  · intro ⟨hspells, hstop, hsize⟩
    refine ⟨by omega, hsize, Array.ext_getElem? fun i => ?_⟩
    rw [List.getElem?_toArray, getElem?_extract]
    by_cases hi : i < part.length
    · rw [if_pos (by omega), hspells i hi]
    · rw [if_neg (by omega), List.getElem?_eq_none (by omega)]

/-- What stands in a string stands as far behind whatever is put in front of it. -/
theorem spells_append_add (before octets : Octets) (offset : Nat) (part : List UInt8) :
    Octets.Spells (before ++ octets) (before.size + offset) part ↔ octets.Spells offset part := by
  have hget : ∀ i, (before ++ octets)[before.size + offset + i]? = octets[offset + i]? := by
    intro i
    rw [Array.getElem?_append_right (by omega), show before.size + offset + i - before.size =
      offset + i by omega]
  simp only [Spells, hget]

theorem spells_toArray (part : List UInt8) : Octets.Spells part.toArray 0 part := by
  intro i hi
  simp

/-- A string is what it spells from its first octet to its last. -/
theorem Spells.eq_toArray (h : octets.Spells 0 part) (hlength : part.length = octets.size) :
    part.toArray = octets := by
  apply Array.ext (by simpa using hlength)
  intro i hi hi'
  have := h i (by simpa using hi)
  rw [Nat.zero_add, Array.getElem?_eq_getElem hi', List.getElem?_eq_getElem (by simpa using hi)]
    at this
  simpa using (Option.some.inj this).symm

theorem octetAt_congr (h : left[offset]? = right[offset]?) :
    right.octetAt offset = left.octetAt offset := by
  unfold octetAt
  rw [Array.getD_eq_getD_getElem?, Array.getD_eq_getD_getElem?, h]

theorem u16At_congr (h : ∀ i, offset ≤ i → i < offset + 2 → left[i]? = right[i]?) :
    right.u16At offset = left.u16At offset := by
  unfold u16At
  rw [octetAt_congr (h offset (Nat.le_refl _) (by omega)),
    octetAt_congr (h (offset + 1) (by omega) (by omega))]

/-! ## Agreement below an offset -/

/-- Whether two strings are the same up to an offset, of which they may both fall short. -/
def AgreeBelow (stop : Nat) (left right : Octets) : Prop :=
  ∀ i, i < stop → left[i]? = right[i]?

theorem AgreeBelow.spells (h : AgreeBelow stop left right) (hpart : left.Spells offset part)
    (hle : offset + part.length ≤ stop) : right.Spells offset part :=
  (spells_congr fun i _ hi => h i (by omega)).1 hpart

theorem AgreeBelow.le_size (h : AgreeBelow stop left right) (hle : stop ≤ left.size) :
    stop ≤ right.size := by
  apply Nat.le_of_not_lt
  intro hlt
  have hget := h right.size hlt
  rw [Array.getElem?_eq_getElem (by omega), Array.getElem?_eq_none (Nat.le_refl _)] at hget
  cases hget

theorem agreeBelow_append (octets more : Octets) :
    AgreeBelow octets.size octets (octets ++ more) :=
  fun _ hoffset => (Array.getElem?_append_left hoffset).symm

theorem agreeBelow_extract (octets : Octets) (stop : Nat) :
    AgreeBelow stop octets (octets.extract 0 stop) := by
  intro i hi
  rw [getElem?_extract, Nat.zero_add, if_pos hi]

theorem agreeBelow_of_extract_eq (h : left.extract 0 stop = right.extract 0 stop) :
    AgreeBelow stop left right :=
  fun i hi => agree_of_extract_eq h i (Nat.zero_le i) hi

/-! ## Numbers -/

@[simp] theorem length_ofU16 (value : UInt16) : (ofU16 value).length = 2 := rfl

@[simp] theorem length_ofU32 (value : UInt32) : (ofU32 value).length = 4 := rfl

theorem ofU16_ofNat (high low : UInt8) :
    ofU16 (UInt16.ofNat (high.toNat * 256 + low.toNat)) = [high, low] := by
  have hhigh := high.toNat_lt
  have hlow := low.toNat_lt
  have hvalue : (UInt16.ofNat (high.toNat * 256 + low.toNat)).toNat =
      high.toNat * 256 + low.toNat := by
    rw [UInt16.toNat_ofNat']
    omega
  unfold ofU16
  rw [hvalue, show (high.toNat * 256 + low.toNat) / 256 = high.toNat by omega,
    show (high.toNat * 256 + low.toNat) % 256 = low.toNat by omega]
  simp

theorem ofNat_of_ofU16 {value : UInt16} {high low : UInt8} (h : ofU16 value = [high, low]) :
    UInt16.ofNat (high.toNat * 256 + low.toNat) = value := by
  have hvalue := value.toNat_lt
  simp only [ofU16, List.cons.injEq, and_true] at h
  obtain ⟨rfl, rfl⟩ := h
  apply UInt16.toNat_inj.1
  rw [UInt16.toNat_ofNat', UInt8.toNat_ofNat', UInt8.toNat_ofNat']
  omega

theorem spells_singleton_iff {octet : UInt8} (h : offset + 1 ≤ octets.size) :
    octets.Spells offset [octet] ↔ octets.octetAt offset = octet := by
  have hlt : offset < octets.size := h
  simp [octetAt, Array.getD_eq_getD_getElem?, hlt]

/-- A number is spelled where it is read. -/
theorem spells_ofU16_iff {value : UInt16} (h : offset + 2 ≤ octets.size) :
    octets.Spells offset (ofU16 value) ↔ octets.u16At offset = value := by
  obtain ⟨high, hhigh⟩ : ∃ high, octets[offset]? = some high :=
    ⟨_, Array.getElem?_eq_getElem (by omega)⟩
  obtain ⟨low, hlow⟩ : ∃ low, octets[offset + 1]? = some low :=
    ⟨_, Array.getElem?_eq_getElem (by omega)⟩
  have hread : octets.u16At offset = UInt16.ofNat (high.toNat * 256 + low.toNat) := by
    simp [u16At, octetAt, Array.getD_eq_getD_getElem?, hhigh, hlow]
  rw [hread]
  constructor
  · intro hs
    apply ofNat_of_ofU16
    unfold ofU16 at hs ⊢
    simp only [spells_cons, hhigh, hlow, Option.some.injEq] at hs
    rw [← hs.1, ← hs.2.1]
  · rintro rfl
    rw [ofU16_ofNat]
    simp [hhigh, hlow]

theorem spells_u16At (h : offset + 2 ≤ octets.size) :
    octets.Spells offset (ofU16 (octets.u16At offset)) :=
  (spells_ofU16_iff h).2 rfl

/-- A number of four octets is spelled where it is read. -/
theorem spells_ofU32_iff {value : UInt32} (h : offset + 4 ≤ octets.size) :
    octets.Spells offset (ofU32 value) ↔ octets.u32At offset = value := by
  have hvalue := value.toNat_lt
  have hhigh := (octets.u16At offset).toNat_lt
  have hlow := (octets.u16At (offset + 2)).toNat_lt
  have hread : (octets.u32At offset).toNat =
      (octets.u16At offset).toNat * 65536 + (octets.u16At (offset + 2)).toNat := by
    unfold u32At
    rw [UInt32.toNat_ofNat']
    omega
  unfold ofU32
  rw [spells_append, length_ofU16, spells_ofU16_iff (by omega), spells_ofU16_iff (by omega),
    ← UInt32.toNat_inj, ← UInt16.toNat_inj, ← UInt16.toNat_inj, hread, UInt16.toNat_ofNat',
    UInt16.toNat_ofNat']
  omega

theorem spells_u32At (h : offset + 4 ≤ octets.size) :
    octets.Spells offset (ofU32 (octets.u32At offset)) :=
  (spells_ofU32_iff h).2 rfl

end DnsMatch.Octets
