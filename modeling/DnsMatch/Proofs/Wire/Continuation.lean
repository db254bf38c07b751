import DnsMatch.Proofs.Wire.Cut
import DnsMatch.Proofs.Wire.Lengths

/-! # Messages that go on

A walk that fails says which field it lacks octets of, and the message so far
says how many octets that field has (`Truncation.width`). With fewer octets more
than that the walk fails in the same way. With enough of them it gets behind the
field, whatever they are, and if it fails again it fails further on. -/

namespace DnsMatch.Wire

variable {octets longer : Octets} {α β : Type} {cursor start length offset count : Nat}
  {field : Field} {truncation : Truncation}

/-- How many octets the field has that a failure names. A label and the data of a record have as
many as the length says that stands right before them. -/
def Truncation.width (octets : Octets) (truncation : Truncation) : Nat :=
  match truncation.field with
  | .header => headerLength
  | .labelLength | .pointer => 1
  | .label => (octets.octetAt (truncation.offset - 1)).toNat
  | .questionFields | .recordFields => typeAndClassLength
  | .ttl => ttlLength
  | .rdlength => 2
  | .rdata => (octets.u16At (truncation.offset - 2)).toNat

def Truncation.stop (octets : Octets) (truncation : Truncation) : Nat :=
  truncation.offset + truncation.width octets

/-! ## Reading goes forward -/

/-- Whether a reading gets to an offset: the cursor behind what it read stands there or further on,
or the field that it fails in starts there or further on. -/
def Reaches (cursorOf : α → Nat) (offset : Nat) : Except Truncation α → Prop
  | .ok value => offset ≤ cursorOf value
  | .error truncation => offset ≤ truncation.offset

theorem Reaches.mono {cursorOf : α → Nat} {offset' : Nat} {result : Except Truncation α}
    (h : Reaches cursorOf offset' result) (hle : offset ≤ offset') :
    Reaches cursorOf offset result := by
  cases result with
  | error truncation => exact Nat.le_trans hle h
  | ok value => exact Nat.le_trans hle h

theorem Reaches.bind {cursorOf : α → Nat} {cursorOf' : β → Nat} {result : Except Truncation α}
    {next : α → Except Truncation β} (h : Reaches cursorOf offset result)
    (hnext : ∀ value, Reaches cursorOf' (cursorOf value) (next value)) :
    Reaches cursorOf' offset (result >>= next) := by
  cases result with
  | error truncation => exact h
  | ok value => exact (hnext value).mono h

theorem reaches_skip (octets : Octets) (cursor length : Nat) (field : Field) :
    Reaches id cursor (skip octets cursor length field) := by
  cases h : skip octets cursor length field with
  | error truncation => exact Nat.le_of_eq (congrArg Truncation.offset (eq_of_skip_eq_error h)).symm
  | ok stop =>
    obtain ⟨rfl, _⟩ := skip_eq_ok h
    exact Nat.le_add_right _ _

/-- A number is read where its octets are passed. -/
theorem Reaches.read {result : Except Truncation Nat} (h : Reaches id offset result) (value : α) :
    Reaches Prod.snd offset (result.map fun stop => (value, stop)) := by
  cases result with
  | error truncation => exact h
  | ok stop => exact h

theorem reaches_skipName (octets : Octets) (cursor : Nat) :
    Reaches id cursor (skipName octets cursor) := by
  fun_induction skipName octets cursor with
  | case1 cursor truncation hlength =>
    have := (reaches_skip octets cursor 1 .labelLength).read (octets.octetAt cursor)
    rw [← readU8, hlength] at this
    exact this
  | case2 cursor next hlength =>
    obtain ⟨_, rfl, _⟩ := readU8_eq_ok hlength
    exact Nat.le_add_right _ _
  | case3 cursor labelLength next hlength hzero hgt =>
    obtain ⟨_, rfl, _⟩ := readU8_eq_ok hlength
    exact (reaches_skip octets _ 1 .pointer).mono (Nat.le_add_right _ _)
  | case4 cursor labelLength next hlength hzero hgt truncation hlabel =>
    obtain ⟨_, rfl, _⟩ := readU8_eq_ok hlength
    rw [eq_of_skip_eq_error hlabel]
    exact Nat.le_add_right _ _
  | case5 cursor labelLength next hlength hzero hgt labelEnd hlabel _ ih =>
    obtain ⟨_, rfl, _⟩ := readU8_eq_ok hlength
    obtain ⟨rfl, _⟩ := skip_eq_ok hlabel
    exact ih.mono (by omega)

theorem reaches_skipQuestion (octets : Octets) (cursor : Nat) :
    Reaches id cursor (skipQuestion octets cursor) :=
  (reaches_skipName octets cursor).bind fun _ => reaches_skip octets _ _ _

theorem reaches_skipQuestions (octets : Octets) (count cursor : Nat) :
    Reaches id cursor (skipQuestions octets count cursor) := by
  induction count generalizing cursor with
  | zero => exact Nat.le_refl cursor
  | succ count ih =>
    rw [skipQuestions_succ]
    exact (reaches_skipQuestion octets cursor).bind ih

theorem reaches_skipRecordData (octets : Octets) (ttlOffset ttlEnd : Nat) :
    Reaches RecordExtent.stop ttlEnd (skipRecordData octets ttlOffset ttlEnd) := by
  refine ((reaches_skip octets ttlEnd 2 .rdlength).read (octets.u16At ttlEnd)).bind ?_
  intro ⟨rdlength, rdataStart⟩
  exact (reaches_skip octets rdataStart _ .rdata).bind fun stop => Nat.le_refl stop

theorem reaches_skipRecordFields (octets : Octets) (start ownerEnd : Nat) :
    Reaches RecordExtent.stop ownerEnd (skipRecordFields octets start ownerEnd).result := by
  rw [result_skipRecordFields_eq_skips]
  refine (reaches_skip octets ownerEnd _ .recordFields).bind fun ttlOffset => ?_
  exact (reaches_skip octets ttlOffset _ .ttl).bind (reaches_skipRecordData octets ttlOffset)

theorem reaches_skipRecord (octets : Octets) (start : Nat) :
    Reaches RecordExtent.stop start (skipRecord octets start).result := by
  rw [result_skipRecord]
  exact (reaches_skipName octets start).bind (reaches_skipRecordFields octets start)

theorem reaches_passRecords (octets : Octets) (count start : Nat) :
    Reaches Prod.snd start (passRecords octets count start) := by
  induction count generalizing start with
  | zero => exact Nat.le_refl start
  | succ count ih =>
    refine (reaches_skipRecord octets start).bind fun extent => ?_
    exact (ih extent.stop).bind fun passed => Nat.le_refl passed.2

/-- The walk, with the end of the last record. -/
def walkToEnd (octets : Octets) : Except Truncation (List Nat × Nat) := do
  let counts ← Counts.read octets
  let recordsStart ← skipQuestions octets counts.qdcount.toNat headerLength
  passRecords octets counts.records recordsStart

theorem walk_eq_map (octets : Octets) : walk octets = (walkToEnd octets).map Prod.fst := by
  rw [walk_eq, walkToEnd]
  cases Counts.read octets with
  | error truncation => rfl
  | ok counts =>
    rw [ok_bind, ok_bind]
    cases skipQuestions octets counts.qdcount.toNat headerLength with
    | error truncation => rfl
    | ok recordsStart =>
      rw [ok_bind, ok_bind]
      cases passRecords octets counts.records recordsStart <;> rfl

theorem walk_eq_error_iff :
    walk octets = .error truncation ↔ walkToEnd octets = .error truncation := by
  rw [walk_eq_map]
  cases walkToEnd octets <;> simp [Except.map]

/-! ## Reading on -/

/-- What a failure means for longer strings. The message ends in the field that it names. As long
as octets of that field are lacking the failure stays as it is, and if none are, the reading gets
behind the field. -/
structure Lacks (octets longer : Octets) (cursorOf : α → Nat) (truncation : Truncation)
    (result' : Except Truncation α) : Prop where
  offset_le : truncation.offset ≤ octets.size
  size_lt : octets.size < truncation.stop octets
  stays : longer.size < truncation.stop octets → result' = .error truncation
  goesOn : truncation.stop octets ≤ longer.size →
    Reaches cursorOf (truncation.stop octets) result'

def Continues (octets longer : Octets) (cursorOf : α → Nat) :
    (result result' : Except Truncation α) → Prop
  | .ok value, result' => result' = .ok value
  | .error truncation, result' => Lacks octets longer cursorOf truncation result'

/-- What is read after a field goes on behind it. -/
theorem Continues.bind {cursorOf : α → Nat} {cursorOf' : β → Nat}
    {result result' : Except Truncation α} {next next' : α → Except Truncation β}
    (h : Continues octets longer cursorOf result result')
    (hnext : ∀ value, result = .ok value →
      Continues octets longer cursorOf' (next value) (next' value))
    (hreaches : ∀ value, Reaches cursorOf' (cursorOf value) (next' value)) :
    Continues octets longer cursorOf' (result >>= next) (result' >>= next') := by
  cases result with
  | ok value =>
    obtain rfl : result' = .ok value := h
    exact hnext value rfl
  | error truncation =>
    refine ⟨h.offset_le, h.size_lt, ?_, ?_⟩
    · intro hlt
      rw [h.stays hlt]
      rfl
    · intro hle
      exact (h.goesOn hle).bind hreaches

/-- A number is the same in the longer string where it could be read before. -/
theorem Continues.read {result result' : Except Truncation Nat} {value value' : α}
    (h : Continues octets longer id result result')
    (hvalue : ∀ stop, result = .ok stop → value' = value) :
    Continues octets longer Prod.snd (result.map fun stop => (value, stop))
      (result'.map fun stop => (value', stop)) := by
  cases result with
  | ok stop =>
    obtain rfl : result' = .ok stop := h
    rw [hvalue stop rfl]
    rfl
  | error truncation =>
    refine ⟨h.offset_le, h.size_lt, ?_, ?_⟩
    · intro hlt
      rw [h.stays hlt]
      rfl
    · intro hle
      exact (h.goesOn hle).read value'

section Longer

variable (hagree : Octets.AgreeBelow octets.size octets longer)
  (hsize : octets.size ≤ Offset.max / 2)

include hagree hsize

theorem continues_skip (hcursor : cursor ≤ octets.size)
    (hwidth : Truncation.width octets ⟨field, cursor⟩ = length) (hlength : length < 65536) :
    Continues octets longer id (skip octets cursor length field)
      (skip longer cursor length field) := by
  have hmax : cursor + length ≤ Offset.max := by
    have : 65536 ≤ Offset.max / 2 := by decide
    omega
  have hstop : Truncation.stop octets ⟨field, cursor⟩ = cursor + length := by
    rw [Truncation.stop, hwidth]
  by_cases hle : cursor + length ≤ octets.size
  · rw [skip_eq_ok_iff.2 ⟨rfl, hle, hmax⟩,
      skip_of_cut hagree (skip_eq_ok_iff.2 ⟨rfl, hle, hmax⟩)]
    rfl
  · rw [skip_cut (by omega)]
    refine ⟨hcursor, by omega, fun hlt => skip_cut (by omega), fun hle' => ?_⟩
    rw [hstop] at hle' ⊢
    rw [skip_eq_ok_iff.2 ⟨rfl, hle', hmax⟩]
    exact Nat.le_refl (cursor + length)

theorem continues_readU8 (hcursor : cursor ≤ octets.size) :
    Continues octets longer Prod.snd (readU8 octets cursor .labelLength)
      (readU8 longer cursor .labelLength) := by
  have hskip : Continues octets longer id (skip octets cursor 1 .labelLength)
      (skip longer cursor 1 .labelLength) :=
    continues_skip hagree hsize hcursor rfl (by decide)
  refine hskip.read fun stop hstop => ?_
  obtain ⟨rfl, hle⟩ := skip_eq_ok hstop
  exact Octets.octetAt_congr (hagree cursor hle)

theorem continues_readU16 (hcursor : cursor ≤ octets.size) :
    Continues octets longer Prod.snd (readU16 octets cursor .rdlength)
      (readU16 longer cursor .rdlength) := by
  have hskip : Continues octets longer id (skip octets cursor 2 .rdlength)
      (skip longer cursor 2 .rdlength) :=
    continues_skip hagree hsize hcursor rfl (by decide)
  refine hskip.read fun stop hstop => ?_
  obtain ⟨rfl, hle⟩ := skip_eq_ok hstop
  exact Octets.u16At_congr fun i _ hlt => hagree i (by omega)

theorem continues_skipName (hcursor : cursor ≤ octets.size) :
    Continues octets longer id (skipName octets cursor) (skipName longer cursor) := by
  -- each label leaves less of the shorter string, in which both runs see the same labels
  induction hleft : octets.size - cursor using Nat.strongRecOn generalizing cursor with
  | ind left ih =>
    subst hleft
    rw [skipName_eq octets, skipName_eq longer]
    refine (continues_readU8 hagree hsize hcursor).bind ?_ ?_
    · intro ⟨labelLength, next⟩ hread
      obtain ⟨rfl, rfl, hle⟩ := readU8_eq_ok hread
      dsimp only
      split
      · rfl
      split
      · exact continues_skip hagree hsize hle rfl (by decide)
      have hlabel : Continues octets longer id
          (skip octets (cursor + 1) (octets.octetAt cursor).toNat .label)
          (skip longer (cursor + 1) (octets.octetAt cursor).toNat .label) := by
        have hlength := (octets.octetAt cursor).toNat_lt
        exact continues_skip hagree hsize hle rfl (by omega)
      refine hlabel.bind ?_ (reaches_skipName longer)
      intro labelEnd hskip
      obtain ⟨rfl, hle'⟩ := skip_eq_ok hskip
      exact ih _ (by omega) hle' rfl
    · intro ⟨labelLength, next⟩
      dsimp only
      split
      · exact Nat.le_refl next
      split
      · exact reaches_skip longer next 1 .pointer
      · exact (reaches_skip longer next _ .label).bind (reaches_skipName longer)

theorem continues_skipQuestion (hcursor : cursor ≤ octets.size) :
    Continues octets longer id (skipQuestion octets cursor) (skipQuestion longer cursor) := by
  refine (continues_skipName hagree hsize hcursor).bind ?_ fun _ => reaches_skip longer _ _ _
  intro nameEnd hname
  obtain ⟨_, _, _, hadmits⟩ := skipName_eq_ok_iff.1 hname
  exact continues_skip hagree hsize hadmits.1 rfl (by decide)

theorem continues_skipQuestions (hcursor : cursor ≤ octets.size) :
    Continues octets longer id (skipQuestions octets count cursor)
      (skipQuestions longer count cursor) := by
  induction count generalizing cursor with
  | zero => rfl
  | succ count ih =>
    rw [skipQuestions_succ, skipQuestions_succ]
    refine (continues_skipQuestion hagree hsize hcursor).bind ?_
      (reaches_skipQuestions longer count)
    intro next hnext
    obtain ⟨_, _, _, hadmits⟩ := skipQuestion_eq_ok_iff.1 hnext
    exact ih hadmits.1

theorem continues_skipRecordData {ttlOffset ttlEnd : Nat} (httlEnd : ttlEnd ≤ octets.size) :
    Continues octets longer RecordExtent.stop (skipRecordData octets ttlOffset ttlEnd)
      (skipRecordData longer ttlOffset ttlEnd) := by
  refine (continues_readU16 hagree hsize httlEnd).bind ?_ ?_
  · intro ⟨rdlength, rdataStart⟩ hread
    obtain ⟨stop, hskip, hvalue⟩ := map_eq_ok_iff.1 hread
    obtain ⟨rfl, hle⟩ := skip_eq_ok hskip
    cases hvalue
    have hrdata : Continues octets longer id
        (skip octets (ttlEnd + 2) (octets.u16At ttlEnd).toNat .rdata)
        (skip longer (ttlEnd + 2) (octets.u16At ttlEnd).toNat .rdata) :=
      continues_skip hagree hsize hle rfl (octets.u16At ttlEnd).toNat_lt
    exact hrdata.bind (fun _ _ => rfl) Nat.le_refl
  · intro ⟨rdlength, rdataStart⟩
    exact (reaches_skip longer rdataStart _ .rdata).bind Nat.le_refl

theorem continues_skipRecordFields {ownerEnd : Nat} (hownerEnd : ownerEnd ≤ octets.size) :
    Continues octets longer RecordExtent.stop (skipRecordFields octets start ownerEnd).result
      (skipRecordFields longer start ownerEnd).result := by
  rw [result_skipRecordFields_eq_skips, result_skipRecordFields_eq_skips]
  have hfields : Continues octets longer id
      (skip octets ownerEnd typeAndClassLength .recordFields)
      (skip longer ownerEnd typeAndClassLength .recordFields) :=
    continues_skip hagree hsize hownerEnd rfl (by decide)
  refine hfields.bind ?_ fun ttlOffset =>
    (reaches_skip longer ttlOffset _ .ttl).bind (reaches_skipRecordData longer ttlOffset)
  intro ttlOffset hskip
  have httl : Continues octets longer id (skip octets ttlOffset ttlLength .ttl)
      (skip longer ttlOffset ttlLength .ttl) := by
    obtain ⟨rfl, hle⟩ := skip_eq_ok hskip
    exact continues_skip hagree hsize hle rfl (by decide)
  refine httl.bind ?_ (reaches_skipRecordData longer ttlOffset)
  intro ttlEnd hskip'
  obtain ⟨rfl, hle⟩ := skip_eq_ok hskip'
  exact continues_skipRecordData hagree hsize hle

theorem continues_skipRecord (hstart : start ≤ octets.size) :
    Continues octets longer RecordExtent.stop (skipRecord octets start).result
      (skipRecord longer start).result := by
  rw [result_skipRecord, result_skipRecord]
  refine (continues_skipName hagree hsize hstart).bind ?_ (reaches_skipRecordFields longer start)
  intro ownerEnd howner
  obtain ⟨_, _, _, hadmits⟩ := skipName_eq_ok_iff.1 howner
  exact continues_skipRecordFields hagree hsize hadmits.1

theorem continues_passRecords (hstart : start ≤ octets.size) :
    Continues octets longer Prod.snd (passRecords octets count start)
      (passRecords longer count start) := by
  induction count generalizing start with
  | zero => rfl
  | succ count ih =>
    refine (continues_skipRecord hagree hsize hstart).bind ?_ fun extent =>
      (reaches_passRecords longer count extent.stop).bind fun passed => Nat.le_refl passed.2
    intro extent hextent
    obtain ⟨_, _, rfl, hadmits⟩ := skipRecord_eq_ok_iff.1 hextent
    exact (ih hadmits.1).bind (fun _ _ => rfl) fun passed => Nat.le_refl passed.2

omit hsize in
/-- The counts are read as one field, the header. -/
theorem continues_counts :
    Continues octets longer (fun _ => headerLength) (Counts.read octets) (Counts.read longer) := by
  by_cases hheader : headerLength ≤ octets.size
  · rw [read_headerCounts hheader]
    exact Counts.read_of_cut hagree (read_headerCounts hheader)
  have hstop : Truncation.stop octets ⟨.header, 0⟩ = 0 + headerLength := rfl
  rw [Counts.read, skip_cut (by omega)]
  refine ⟨Nat.zero_le _, by omega, fun hlt => ?_, fun hle => ?_⟩
  · rw [Counts.read, skip_cut (hstop ▸ hlt)]
    rfl
  · rw [read_headerCounts (by omega)]
    exact Nat.le_refl headerLength

theorem continues_walkToEnd :
    Continues octets longer Prod.snd (walkToEnd octets) (walkToEnd longer) := by
  refine (continues_counts hagree).bind ?_ fun counts =>
    (reaches_skipQuestions longer _ headerLength).bind (reaches_passRecords longer _)
  intro counts hcounts
  have hheader := (Counts.read_eq_ok_iff.1 hcounts).1
  refine (continues_skipQuestions hagree hsize hheader.1).bind ?_ (reaches_passRecords longer _)
  intro recordsStart hquestions
  obtain ⟨_, _, _, _, hadmits⟩ := (skipQuestions_eq_ok_iff hheader).1 hquestions
  exact continues_passRecords hagree hsize hadmits.1

end Longer

/-! ## What a failure tells -/

/-- **A failure tells how much is missing**, in a message of less than `2 ^ 63` octets, as any in
memory has. The message ends in the field that the walk blames, or right before it. With more octets
behind the message the walk still blames that field as long as it is not complete, and then it
succeeds or blames a field that starts behind it. -/
theorem walk_error_tells_what_is_missing (octets : Octets) (hsize : octets.size ≤ Offset.max / 2)
    {truncation : Truncation} (h : walk octets = .error truncation) :
    truncation.offset ≤ octets.size ∧
      octets.size < truncation.offset + truncation.width octets ∧
      ∀ more : Octets,
        (octets.size + more.size < truncation.offset + truncation.width octets →
          walk (octets ++ more) = .error truncation) ∧
        (truncation.offset + truncation.width octets ≤ octets.size + more.size →
          (∃ ttlOffsets, walk (octets ++ more) = .ok ttlOffsets) ∨
            ∃ truncation', walk (octets ++ more) = .error truncation' ∧
              truncation.offset + truncation.width octets ≤ truncation'.offset) := by
  rw [walk_eq_error_iff] at h
  have hlacks : ∀ more : Octets,
      Lacks octets (octets ++ more) Prod.snd truncation (walkToEnd (octets ++ more)) := by
    intro more
    have hcontinues := continues_walkToEnd (Octets.agreeBelow_append octets more) hsize
    rw [h] at hcontinues
    exact hcontinues
  refine ⟨(hlacks #[]).offset_le, (hlacks #[]).size_lt, fun more => ⟨?_, ?_⟩⟩
  · intro hlt
    exact walk_eq_error_iff.2 ((hlacks more).stays (by rwa [Array.size_append]))
  · intro hle
    have hreaches := (hlacks more).goesOn (by rwa [Array.size_append])
    cases hwalk : walkToEnd (octets ++ more) with
    | ok passed => exact .inl ⟨passed.1, by rw [walk_eq_map, hwalk]; rfl⟩
    | error truncation' =>
      rw [hwalk] at hreaches
      exact .inr ⟨truncation', walk_eq_error_iff.2 hwalk, hreaches⟩

/-- The sample cut off in the middle of an RDLENGTH, which one octet more completes. -/
theorem walk_error_tells_what_is_missing_sample :
    walk (Message.sample.encode.extract 0 30) = .error ⟨.rdlength, 29⟩ ∧
      ((∃ ttlOffsets, walk (Message.sample.encode.extract 0 30 ++ #[4]) = .ok ttlOffsets) ∨
        ∃ truncation, walk (Message.sample.encode.extract 0 30 ++ #[4]) = .error truncation ∧
          31 ≤ truncation.offset) := by
  have hcut : (Message.sample.encode.extract 0 30).size = 30 := by decide
  have hwalk : walk (Message.sample.encode.extract 0 30) = .error ⟨.rdlength, 29⟩ :=
    Message.walk_extract (by decide) (by decide) (by decide)
  obtain ⟨_, _, hmore⟩ := walk_error_tells_what_is_missing _ (by rw [hcut]; decide) hwalk
  refine ⟨hwalk, (hmore #[4]).2 ?_⟩
  rw [hcut]
  decide

end DnsMatch.Wire
