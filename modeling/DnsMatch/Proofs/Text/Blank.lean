import DnsMatch.Text.Hex

/-! # White space in texts

A text with white space put in anywhere is a spaced variant of it
(`IsSpaced`). Of a text without white space, the spaced variants are those that
give the text back once white space is left out. -/

namespace DnsMatch.Text

/-! ## The characters of white space -/

def blanks : List Char := [' ', '\t', '\n', '\x0c', '\r']

def blankOctets : List UInt8 := [0x20, 0x09, 0x0a, 0x0c, 0x0d]

theorem blankOctets_eq : blankOctets = blanks.map Char.toUInt8 := rfl

theorem mem_blankOctets_iff {octet : UInt8} : octet ∈ blankOctets ↔ isBlankOctet octet := by
  simp only [blankOctets, isBlankOctet, isBlankCode, List.mem_cons, List.not_mem_nil, or_false,
    Bool.or_eq_true, beq_iff_eq, ← UInt8.toNat_inj, or_assoc]
  rfl

/-- What holds of the codes below 128 holds of all ASCII characters. -/
theorem forall_ascii {P : Char → Prop} (h : ∀ code < 128, P (Char.ofNat code)) {c : Char}
    (hc : c.toNat < 128) : P c :=
  c.ofNat_toNat ▸ h c.toNat hc

theorem mem_blanks_iff {c : Char} : c ∈ blanks ↔ isBlank c := by
  have hcode : ∀ {d : Char}, c = d ↔ c.toNat = d.toNat :=
    ⟨congrArg Char.toNat, fun h => by rw [← c.ofNat_toNat, h, Char.ofNat_toNat]⟩
  simp only [blanks, isBlank, isBlankCode, List.mem_cons, List.not_mem_nil, or_false,
    Bool.or_eq_true, beq_iff_eq, hcode, or_assoc]
  rfl

/-- Letters beyond ASCII have no case. -/
theorem toLower_of_le {c : Char} (h : 128 ≤ c.toNat) : c.toLower = c := by
  have hval : 128 ≤ c.val.toNat := h
  unfold Char.toLower
  rw [dif_neg]
  simp only [UInt32.le_iff_toNat_le, ge_iff_le]
  intro hrange
  have hle : c.val.toNat ≤ 90 := hrange.2
  omega

theorem filter_not_isBlank (text : List Char) :
    text.filter (!isBlank ·) = text.filter (· ∉ blanks) :=
  List.filter_congr fun c _ => by simp [mem_blanks_iff]

theorem filter_not_isBlankOctet (octets : List UInt8) :
    octets.filter (!isBlankOctet ·) = octets.filter (· ∉ blankOctets) :=
  List.filter_congr fun octet _ => by simp [mem_blankOctets_iff]

theorem isBlank_toLower (c : Char) : isBlank c.toLower = isBlank c := by
  by_cases hc : c.toNat < 128
  · exact forall_ascii (P := fun c => isBlank c.toLower = isBlank c) (by decide) hc
  · rw [toLower_of_le (Nat.le_of_not_lt hc)]

/-! ## Spaced variants -/

section Spaced

variable {α : Type} {blanks text spaced : List α}

/-- Whether a list is another one with blanks put in anywhere. -/
inductive IsSpaced (blanks : List α) : List α → List α → Prop
  | nil : IsSpaced blanks [] []
  | keep {item : α} {text spaced : List α} (rest : IsSpaced blanks text spaced) :
      IsSpaced blanks (item :: text) (item :: spaced)
  | insert {item : α} {text spaced : List α} (blank : item ∈ blanks)
      (rest : IsSpaced blanks text spaced) : IsSpaced blanks text (item :: spaced)

theorem IsSpaced.map {β : Type} (f : α → β) (h : IsSpaced blanks text spaced) :
    IsSpaced (blanks.map f) (text.map f) (spaced.map f) := by
  induction h with
  | nil => exact .nil
  | keep rest ih => exact .keep ih
  | insert blank rest ih => exact .insert (List.mem_map_of_mem blank) ih

/-- The spaced variants of a mapped text are those of the text that is mapped. -/
theorem exists_of_isSpaced_map {β : Type} {spaced' : List β} {f : α → β}
    (h : IsSpaced (blanks.map f) (text.map f) spaced') :
    ∃ spaced, spaced' = spaced.map f ∧ IsSpaced blanks text spaced := by
  generalize htext : text.map f = text' at h
  induction h generalizing text with
  | nil =>
    obtain rfl := List.map_eq_nil_iff.1 htext
    exact ⟨[], rfl, .nil⟩
  | keep rest ih =>
    obtain ⟨item, text, rfl, rfl, hrest⟩ := List.map_eq_cons_iff.1 htext
    obtain ⟨spaced, rfl, hspaced⟩ := ih hrest
    exact ⟨item :: spaced, rfl, .keep hspaced⟩
  | insert blank rest ih =>
    obtain ⟨item, hitem, rfl⟩ := List.mem_map.1 blank
    obtain ⟨spaced, rfl, hspaced⟩ := ih htext
    exact ⟨item :: spaced, rfl, .insert hitem hspaced⟩

variable [DecidableEq α]

/-- Without their blanks a text and its spaced variants are the same. -/
theorem IsSpaced.filter_eq (h : IsSpaced blanks text spaced) :
    spaced.filter (· ∉ blanks) = text.filter (· ∉ blanks) := by
  induction h with
  | nil => rfl
  | keep rest ih => simp only [List.filter_cons, ih]
  | insert blank rest ih => rw [List.filter_cons_of_neg (by simpa using blank), ih]

theorem isSpaced_filter (spaced : List α) :
    IsSpaced blanks (spaced.filter (· ∉ blanks)) spaced := by
  induction spaced with
  | nil => exact .nil
  | cons item spaced ih =>
    by_cases hblank : item ∈ blanks
    · rw [List.filter_cons_of_neg (by simpa using hblank)]
      exact .insert hblank ih
    · rw [List.filter_cons_of_pos (by simpa using hblank)]
      exact .keep ih

theorem isSpaced_iff_filter_eq (h : ∀ item ∈ text, item ∉ blanks) :
    IsSpaced blanks text spaced ↔ spaced.filter (· ∉ blanks) = text := by
  have htext : text.filter (· ∉ blanks) = text := List.filter_eq_self.2 (by simpa using h)
  constructor
  · intro hspaced
    rw [hspaced.filter_eq, htext]
  · rintro rfl
    exact isSpaced_filter spaced

end Spaced

end DnsMatch.Text
