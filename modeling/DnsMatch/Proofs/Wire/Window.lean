import DnsMatch.Proofs.Wire.Grammar
import DnsMatch.Wire.Layout

/-! # The windows of a walked message

The TTL windows of a walked message are a chain (`walk_isChain`), and nothing
that the walk goes by lies in one of them: a string of the same length that
agrees with a walked message outside its windows is walked as well, to the same
offsets (`walk_congr`). -/

namespace DnsMatch.Wire

variable {octets left right : Octets} {ttlOffsets : List Nat} {length start offset : Nat}

/-! ## Chains -/

@[simp] theorem not_inWindow_nil : ¬InWindow [] offset := by
  simp [InWindow]

@[simp] theorem inWindow_cons {ttlOffset : Nat} :
    InWindow (ttlOffset :: ttlOffsets) offset ↔
      (ttlOffset ≤ offset ∧ offset < ttlOffset + ttlLength) ∨ InWindow ttlOffsets offset := by
  simp [InWindow]

theorem IsChainFrom.mono_start {start' : Nat} (h : IsChainFrom length start ttlOffsets)
    (hle : start' ≤ start) : IsChainFrom length start' ttlOffsets := by
  cases ttlOffsets with
  | nil => exact Nat.le_trans hle h
  | cons ttlOffset ttlOffsets => exact ⟨Nat.le_trans hle h.1, h.2⟩

theorem IsChainFrom.le_length (h : IsChainFrom length start ttlOffsets) : start ≤ length := by
  induction ttlOffsets generalizing start with
  | nil => exact h
  | cons ttlOffset ttlOffsets ih =>
    have := ih h.2
    have := h.1
    omega

/-- The windows of a chain lie between its ends. -/
theorem IsChainFrom.of_inWindow (h : IsChainFrom length start ttlOffsets)
    (hwindow : InWindow ttlOffsets offset) : start ≤ offset ∧ offset < length := by
  induction ttlOffsets generalizing start with
  | nil => exact absurd hwindow not_inWindow_nil
  | cons ttlOffset ttlOffsets ih =>
    have hle := h.1
    have hlength := h.2.le_length
    rcases inWindow_cons.1 hwindow with hfirst | hrest
    · omega
    · have := ih h.2 hrest
      omega

theorem IsChainFrom.of_mem {ttlOffset : Nat} (h : IsChainFrom length start ttlOffsets)
    (hmem : ttlOffset ∈ ttlOffsets) : start ≤ ttlOffset ∧ ttlOffset + ttlLength ≤ length := by
  induction ttlOffsets generalizing start with
  | nil => cases hmem
  | cons first ttlOffsets ih =>
    have hle := h.1
    rcases List.mem_cons.1 hmem with hfirst | hrest
    · rw [hfirst]
      exact ⟨hle, h.2.le_length⟩
    · have := ih h.2 hrest
      omega

theorem IsChainFrom.mono_length {length' : Nat} (h : IsChainFrom length start ttlOffsets)
    (hle : length ≤ length') : IsChainFrom length' start ttlOffsets := by
  induction ttlOffsets generalizing start with
  | nil => exact Nat.le_trans h hle
  | cons ttlOffset ttlOffsets ih => exact ⟨h.1, ih h.2⟩

/-! ## Agreement outside windows -/

def AgreeFrom (start : Nat) (ttlOffsets : List Nat) (left right : Octets) : Prop :=
  ∀ offset, start ≤ offset → ¬InWindow ttlOffsets offset → left[offset]? = right[offset]?

theorem agreeOutside_iff : AgreeOutside ttlOffsets left right ↔ AgreeFrom 0 ttlOffsets left right :=
  ⟨fun h offset _ hout => h offset hout, fun h offset hout => h offset (Nat.zero_le _) hout⟩

theorem agreeOutside_iff_of_size_eq (hsize : right.size = left.size) :
    AgreeOutside ttlOffsets left right ↔
      ∀ i, i < left.size → ¬InWindow ttlOffsets i → left[i]? = right[i]? := by
  constructor
  · intro h i _ hout
    exact h i hout
  · intro h offset hout
    by_cases hlt : offset < left.size
    · exact h offset hlt hout
    · rw [Array.getElem?_eq_none (by omega), Array.getElem?_eq_none (by omega)]

theorem AgreeFrom.mono {start' : Nat} (h : AgreeFrom start ttlOffsets left right)
    (hle : start ≤ start') : AgreeFrom start' ttlOffsets left right :=
  fun offset hoffset hout => h offset (Nat.le_trans hle hoffset) hout

/-- Agreement from before a chain is agreement before the chain and from its start on. -/
theorem agreeFrom_iff {start' : Nat} (hchain : IsChainFrom length start' ttlOffsets)
    (hle : start ≤ start') :
    AgreeFrom start ttlOffsets left right ↔
      (∀ i, start ≤ i → i < start' → left[i]? = right[i]?) ∧
        AgreeFrom start' ttlOffsets left right := by
  constructor
  · intro h
    refine ⟨fun i hi hi' => h i hi ?_, h.mono hle⟩
    intro hwindow
    have := hchain.of_inWindow hwindow
    omega
  · intro ⟨hbefore, hfrom⟩ offset hoffset hout
    by_cases hlt : offset < start'
    · exact hbefore offset hoffset hlt
    · exact hfrom offset (by omega) hout

/-- Agreement around the first window of a chain. -/
theorem agreeFrom_cons_iff {ttlOffset : Nat}
    (hchain : IsChainFrom length start (ttlOffset :: ttlOffsets)) :
    AgreeFrom start (ttlOffset :: ttlOffsets) left right ↔
      (∀ i, start ≤ i → i < ttlOffset → left[i]? = right[i]?) ∧
        AgreeFrom (ttlOffset + ttlLength) ttlOffsets left right := by
  have hle := hchain.1
  constructor
  · intro h
    constructor
    · intro i hi hi'
      refine h i hi ?_
      intro hwindow
      rcases inWindow_cons.1 hwindow with hfirst | hrest
      · omega
      · have := hchain.2.of_inWindow hrest
        omega
    · intro offset hoffset hout
      refine h offset (by omega) ?_
      intro hwindow
      rcases inWindow_cons.1 hwindow with hfirst | hrest
      · omega
      · exact hout hrest
  · intro ⟨hbefore, hfrom⟩ offset hoffset hout
    rw [inWindow_cons, not_or] at hout
    by_cases hlt : offset < ttlOffset
    · exact hbefore offset hoffset hlt
    · exact hfrom offset (by omega) hout.2

/-! ## The windows of a message -/

theorem Record.length_ttlOffsetsFrom (start : Nat) (records : List Record) :
    (ttlOffsetsFrom start records).length = records.length := by
  induction records generalizing start with
  | nil => rfl
  | cons record records ih => rw [ttlOffsetsFrom, List.length_cons, List.length_cons, ih]

theorem Record.isChainFrom_ttlOffsetsFrom (start : Nat) (records : List Record) :
    IsChainFrom (start + (records.flatMap Record.encode).length) start
      (Record.ttlOffsetsFrom start records) := by
  induction records generalizing start with
  | nil => simp [Record.ttlOffsetsFrom, IsChainFrom]
  | cons record records ih =>
    have hlength := record.length_encode
    refine ⟨by omega, ?_⟩
    rw [List.flatMap_cons, List.length_append, ← Nat.add_assoc]
    refine (ih (start + record.encode.length)).mono_start ?_
    simp only [ttlLength]
    omega

theorem walk_isChain (h : walk octets = .ok ttlOffsets) :
    ∃ stop, octets.Admits stop ∧ IsChain stop ttlOffsets := by
  obtain ⟨_, _, records, _, _, _, _, _, _, _, rfl, hstop⟩ := walk_eq_ok_iff_spells.1 h
  exact ⟨_, hstop, (Record.isChainFrom_ttlOffsetsFrom _ records).mono_start (Nat.zero_le _)⟩

/-! ## What the walk goes by -/

namespace Record

def withTtl (record : Record) (ttl : UInt32) : Record :=
  { record with ttl }

@[simp] theorem encodeHead_withTtl (record : Record) (ttl : UInt32) :
    (record.withTtl ttl).encodeHead = record.encodeHead := rfl

@[simp] theorem encodeTail_withTtl (record : Record) (ttl : UInt32) :
    (record.withTtl ttl).encodeTail = record.encodeTail := rfl

@[simp] theorem length_encode_withTtl (record : Record) (ttl : UInt32) :
    (record.withTtl ttl).encode.length = record.encode.length := by
  rw [length_encode, length_encode]
  rfl

theorem spells_encode_iff_parts {record : Record} :
    octets.Spells start record.encode ↔
      octets.Spells start record.encodeHead ∧
      octets.Spells (start + record.encodeHead.length) (Octets.ofU32 record.ttl) ∧
      octets.Spells (start + record.encodeHead.length + ttlLength) record.encodeTail := by
  simp only [encode, Octets.spells_append, List.length_append, Octets.length_ofU32, ttlLength,
    Nat.add_assoc, and_assoc]

/-- Agreement outside the TTL of a record carries the record over, with another TTL. -/
theorem exists_withTtl_of_agree {record : Record} (h : left.Spells start record.encode)
    (hhead : ∀ i, start ≤ i → i < start + record.encodeHead.length → left[i]? = right[i]?)
    (htail : ∀ i, start + record.encodeHead.length + ttlLength ≤ i →
      i < start + record.encode.length → left[i]? = right[i]?)
    (hsize : start + record.encode.length ≤ right.size) :
    ∃ ttl, right.Spells start (record.withTtl ttl).encode := by
  have hlength := record.length_encode
  have htailLength : record.encodeTail.length = 2 + record.rdata.length := by simp [encodeTail]
  obtain ⟨hheadSpells, _, htailSpells⟩ := spells_encode_iff_parts.1 h
  have hhead' : right.Spells start record.encodeHead := (Octets.spells_congr hhead).1 hheadSpells
  -- whatever stands in the window is the other TTL
  have httl' : right.Spells (start + record.encodeHead.length) (Octets.ofU32 (right.u32At _)) :=
    Octets.spells_u32At (by omega)
  have htail' : right.Spells (start + record.encodeHead.length + ttlLength) record.encodeTail := by
    refine (Octets.spells_congr fun i hi hi' => htail i hi ?_).1 htailSpells
    simp only [ttlLength] at hi'
    omega
  refine ⟨right.u32At (start + record.encodeHead.length), spells_encode_iff_parts.2 ?_⟩
  rw [encodeHead_withTtl, encodeTail_withTtl]
  exact ⟨hhead', httl', htail'⟩

/-- Agreement outside the TTLs of a row of records carries the row over, with other TTLs. -/
theorem exists_of_agreeFrom {records : List Record}
    (h : left.Spells start (records.flatMap encode))
    (hagree : AgreeFrom start (ttlOffsetsFrom start records) left right)
    (hsize : start + (records.flatMap encode).length ≤ right.size) :
    ∃ records' : List Record, records'.length = records.length ∧
      right.Spells start (records'.flatMap encode) ∧
      ttlOffsetsFrom start records' = ttlOffsetsFrom start records ∧
      (records'.flatMap encode).length = (records.flatMap encode).length := by
  induction records generalizing start with
  | nil => exact ⟨[], rfl, by simp, rfl, rfl⟩
  | cons record records ih =>
    have hlength := record.length_encode
    rw [List.flatMap_cons, Octets.spells_append] at h
    rw [List.flatMap_cons, List.length_append, ← Nat.add_assoc] at hsize
    obtain ⟨hhead, hrest⟩ :=
      (agreeFrom_cons_iff (isChainFrom_ttlOffsetsFrom start (record :: records))).1 hagree
    obtain ⟨htail, hrest⟩ := (agreeFrom_iff (isChainFrom_ttlOffsetsFrom _ records)
      (by simp only [ttlLength]; omega)).1 hrest
    obtain ⟨ttl, hrecord⟩ := exists_withTtl_of_agree h.1 hhead htail (by omega)
    obtain ⟨records', hlength', hspells', hoffsets', hsize'⟩ := ih h.2 hrest hsize
    refine ⟨record.withTtl ttl :: records', by simp [hlength'], ?_, ?_, ?_⟩
    · rw [List.flatMap_cons, Octets.spells_append, length_encode_withTtl]
      exact ⟨hrecord, hspells'⟩
    · rw [ttlOffsetsFrom, ttlOffsetsFrom, length_encode_withTtl, hoffsets', encodeHead_withTtl]
    · rw [List.flatMap_cons, List.flatMap_cons, List.length_append, List.length_append,
        length_encode_withTtl, hsize']

end Record

/-- **The walk goes by nothing inside the windows it finds.** -/
theorem walk_congr (h : walk left = .ok ttlOffsets) (hagree : AgreeOutside ttlOffsets left right)
    (hsize : right.size = left.size) : walk right = .ok ttlOffsets := by
  obtain ⟨counts, questions, records, recordsStart, hcounts, hquestionsLength, hrecordsLength,
    hstart, hquestionsSpells, hrecordsSpells, rfl, hstop⟩ := walk_eq_ok_iff_spells.1 h
  obtain ⟨hheader, hqdcount, hancount, hnscount, harcount⟩ := Counts.read_eq_ok_iff.1 hcounts
  have hadmits : ∀ cursor, left.Admits cursor → right.Admits cursor := by
    intro cursor hcursor
    exact ⟨hsize ▸ hcursor.1, hcursor.2⟩
  -- the windows are all in the records, so what is before them is the same
  obtain ⟨hbefore, hfrom⟩ := (agreeFrom_iff (Record.isChainFrom_ttlOffsetsFrom _ records)
    (Nat.zero_le _)).1 (agreeOutside_iff.1 hagree)
  have hspells : ∀ {cursor : Nat} {part : List UInt8}, left.Spells cursor part →
      cursor + part.length ≤ recordsStart → right.Spells cursor part := by
    intro cursor part hpart hle
    exact (Octets.spells_congr fun i _ hi => hbefore i (Nat.zero_le _) (by omega)).1 hpart
  have hcounts' : Counts.read right = .ok counts := by
    simp only [headerLength] at hstart
    exact Counts.read_eq_ok_iff.2 ⟨hadmits _ hheader, hspells hqdcount (by simp; omega),
      hspells hancount (by simp; omega), hspells hnscount (by simp; omega),
      hspells harcount (by simp; omega)⟩
  obtain ⟨records', hlength', hspells', hoffsets', hsize'⟩ :=
    Record.exists_of_agreeFrom hrecordsSpells hfrom (hsize ▸ hstop.1)
  exact walk_eq_ok_iff_spells.2 ⟨counts, questions, records', recordsStart, hcounts',
    hquestionsLength, hlength'.trans hrecordsLength, hstart,
    hspells hquestionsSpells (Nat.le_of_eq hstart.symm), hspells', hoffsets'.symm,
    hsize' ▸ hadmits _ hstop⟩

end DnsMatch.Wire
