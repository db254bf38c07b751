import DnsMatch.Proofs.Wire.Beginning
import DnsMatch.Proofs.Wire.Lengths

/-! # The walk goes by lengths only

Two strings of one length are walked alike, whether the walk succeeds or fails,
if they have the same counts and the same octets wherever the walk of one of
them reads a length. What the other octets are has no influence. -/

namespace DnsMatch.Wire

variable {left right : Octets} {cursor length start offset count : Nat}

/-! ## Reading alike -/

theorem skip_congr (hsize : right.size = left.size) (cursor length : Nat) (field : Field) :
    skip right cursor length field = skip left cursor length field := by
  unfold skip
  rw [hsize]

/-- What is read of two strings is the same if it is the same wherever something is read. -/
theorem map_skip_congr {α : Type} {read read' : α} {field : Field} (hsize : right.size = left.size)
    (h : ∀ stop, skip left cursor length field = .ok stop → read' = read) :
    (skip right cursor length field).map (fun stop => (read', stop)) =
      (skip left cursor length field).map (fun stop => (read, stop)) := by
  rw [skip_congr hsize]
  cases hskip : skip left cursor length field with
  | error truncation => rfl
  | ok stop => rw [h stop hskip]

theorem readU8_congr {field : Field} (hsize : right.size = left.size)
    (h : ∀ value next, readU8 left cursor field = .ok (value, next) →
      left[cursor]? = right[cursor]?) :
    readU8 right cursor field = readU8 left cursor field := by
  refine map_skip_congr hsize fun stop hskip =>
    Octets.octetAt_congr (h (left.octetAt cursor) stop ?_)
  rw [readU8, hskip]
  rfl

theorem readU16_congr {field : Field} (hsize : right.size = left.size)
    (h : ∀ value next, readU16 left cursor field = .ok (value, next) →
      ∀ i, cursor ≤ i → i < next → left[i]? = right[i]?) :
    readU16 right cursor field = readU16 left cursor field := by
  refine map_skip_congr hsize fun stop hskip => ?_
  obtain ⟨hstop, _⟩ := skip_eq_ok hskip
  have hagree := h (left.u16At cursor) stop (by rw [readU16, hskip]; rfl)
  exact Octets.u16At_congr fun i hi hi' => hagree i hi (by omega)

/-! ## Two runs -/

theorem skipName_congr (hsize : right.size = left.size)
    (hagree : ∀ offset, NameLengthAt left cursor offset → left[offset]? = right[offset]?) :
    skipName right cursor = skipName left cursor := by
  have hlength : readU8 right cursor .labelLength = readU8 left cursor .labelLength :=
    readU8_congr hsize fun value next h => hagree _ (.here h)
  fun_induction skipName left cursor with
  | case1 cursor truncation hread =>
    rw [skipName_eq, hlength, hread]
    rfl
  | case2 cursor next hread =>
    rw [skipName_eq, hlength, hread]
    rfl
  | case3 cursor labelLength next hread hzero hgt =>
    rw [skipName_of_pointer (hlength.trans hread) hgt, skip_congr hsize]
  | case4 cursor labelLength next hread hzero hgt truncation hlabel =>
    rw [skipName_eq, hlength, hread]
    simp only [ok_bind, if_neg hzero, if_neg hgt, skip_congr hsize, hlabel, error_bind]
  | case5 cursor labelLength next hread hzero hgt labelEnd hlabel _ ih =>
    have hrest : ∀ offset, NameLengthAt left labelEnd offset → left[offset]? = right[offset]? :=
      fun offset h => hagree offset (.later hread hzero hgt hlabel h)
    rw [skipName_eq, hlength, hread]
    simp only [ok_bind, if_neg hzero, if_neg hgt, skip_congr hsize, hlabel]
    exact ih hrest (readU8_congr hsize fun value next h => hrest labelEnd (.here h))

theorem skipQuestion_congr (hsize : right.size = left.size)
    (hagree : ∀ offset, NameLengthAt left cursor offset → left[offset]? = right[offset]?) :
    skipQuestion right cursor = skipQuestion left cursor := by
  unfold skipQuestion
  rw [skipName_congr hsize hagree]
  congr 1
  funext nameEnd
  exact skip_congr hsize _ _ _

theorem skipQuestions_congr (hsize : right.size = left.size)
    (hagree : ∀ offset, RowLengthAt (NameLengthAt left) (skipQuestion left) count cursor offset →
      left[offset]? = right[offset]?) :
    skipQuestions right count cursor = skipQuestions left count cursor := by
  induction count generalizing cursor with
  | zero => rfl
  | succ count ih =>
    rw [skipQuestions_succ, skipQuestions_succ,
      skipQuestion_congr hsize fun offset h => hagree offset (.first h)]
    cases hquestion : skipQuestion left cursor with
    | error truncation => rw [error_bind, error_bind]
    | ok next => exact ih fun offset h => hagree offset (.later hquestion h)

theorem skipRecord_congr (hsize : right.size = left.size)
    (hagree : ∀ offset, RecordLengthAt left start offset → left[offset]? = right[offset]?) :
    (skipRecord right start).result = (skipRecord left start).result := by
  rw [result_skipRecord, result_skipRecord,
    skipName_congr hsize fun offset h => hagree offset (.owner h)]
  cases howner : skipName left start with
  | error truncation => rw [error_bind, error_bind]
  | ok ownerEnd =>
    simp only [ok_bind, result_skipRecordFields_eq_skips, skip_congr hsize]
    cases httlOffset : skip left ownerEnd typeAndClassLength .recordFields with
    | error truncation => rw [error_bind, error_bind]
    | ok ttlOffset =>
      cases httlEnd : skip left ttlOffset ttlLength .ttl with
      | error truncation => rw [ok_bind, ok_bind, httlEnd, error_bind, error_bind]
      | ok ttlEnd =>
        obtain ⟨rfl, _⟩ := skip_eq_ok httlOffset
        obtain ⟨rfl, _⟩ := skip_eq_ok httlEnd
        simp only [ok_bind, httlEnd, skipRecordData, skip_congr hsize]
        rw [readU16_congr hsize]
        exact fun value next h i hi hi' => hagree i (.rdlength howner rfl h hi hi')

theorem passRecords_congr (hsize : right.size = left.size)
    (hagree : ∀ offset, RowLengthAt (RecordLengthAt left) (recordEnd left) count start offset →
      left[offset]? = right[offset]?) :
    passRecords right count start = passRecords left count start := by
  induction count generalizing start with
  | zero => rfl
  | succ count ih =>
    rw [passRecords, passRecords, skipRecord_congr hsize fun offset h => hagree offset (.first h)]
    cases hrecord : (skipRecord left start).result with
    | error truncation => rw [error_bind, error_bind]
    | ok extent =>
      have hend : recordEnd left start = .ok extent.stop := by
        rw [recordEnd, hrecord]
        rfl
      rw [ok_bind, ok_bind, ih fun offset h => hagree offset (.later hend h)]

theorem walk_congr_of_lengths {counts counts' : Counts} (hsize : right.size = left.size)
    (hleft : Counts.read left = .ok counts) (hright : Counts.read right = .ok counts')
    (hqdcount : counts'.qdcount = counts.qdcount) (hrecords : counts'.records = counts.records)
    (hagree : ∀ offset, LengthAt left offset → left[offset]? = right[offset]?) :
    walk right = walk left := by
  have hquestions := skipQuestions_congr hsize fun offset h => hagree offset (.question hleft h)
  rw [walk_eq, walk_eq, hleft, hright, ok_bind, ok_bind, hqdcount, hrecords, hquestions]
  cases hstart : skipQuestions left counts.qdcount.toNat headerLength with
  | error truncation => rw [error_bind, error_bind]
  | ok recordsStart =>
    rw [ok_bind, ok_bind,
      passRecords_congr hsize fun offset h => hagree offset (.record hleft hstart h)]

/-! ## Lengths are all that counts -/

/-- **The walk looks at lengths only.** A string that has a header is walked like any other of its
length that has the same number of questions and of records and the same octets wherever the walk
reads a length: to the same offsets, or to the same failure. No length is in the header. What has a
header begins a message, and the walk takes for lengths only what is one in the layout of that
message, and all of these where the message is complete. So no other field has a say, and nothing
behind the last record. -/
theorem walk_goes_by_lengths_only :
    (∀ left right : Octets, headerLength ≤ left.size → right.size = left.size →
      (headerCounts right).qdcount = (headerCounts left).qdcount →
      (headerCounts right).records = (headerCounts left).records →
      (∀ offset, LengthAt left offset → right[offset]? = left[offset]?) →
        walk right = walk left) ∧
    (∀ octets offset, LengthAt octets offset → headerLength ≤ offset) ∧
    (∀ octets : Octets, headerLength ≤ octets.size → octets.size ≤ Offset.max / 2 →
      ∃ message : Message, message.encode.extract 0 octets.size = octets ∧
        ∀ offset, LengthAt octets offset →
          ∃ place, message.Covers offset place ∧ place.field.isLength = true) ∧
    ∀ message : Message, message.recordsEnd ≤ Offset.max →
      ∀ offset, LengthAt message.encode offset ↔
        ∃ place, message.Covers offset place ∧ place.field.isLength = true := by
  refine ⟨?_, fun octets offset => LengthAt.headerLength_le, ?_,
    fun message hmax offset => Message.lengthAt_iff hmax⟩
  · intro left right hheader hsize hqdcount hrecords hagree
    exact walk_congr_of_lengths hsize (read_headerCounts hheader)
      (read_headerCounts (hsize ▸ hheader)) hqdcount hrecords fun offset h => (hagree offset h).symm
  · intro octets hheader hsize
    obtain ⟨message, hmax, hencode⟩ := exists_message_of_header hheader hsize
    refine ⟨message, hencode, fun offset h => (Message.lengthAt_iff hmax).1 (h.of_cut ?_)⟩
    intro i hi
    exact ((Octets.agreeBelow_extract message.encode octets.size i hi).trans (by rw [hencode])).symm

/-- The sample with every field changed that is not a length, and with its records moved into one
section. -/
def disguisedSample : Octets :=
  #[0xff, 0xff, 0, 0, 0, 1, 0, 0, 0, 2, 0, 0,
    1, 0x7a, 0, 0, 255, 0, 3,
    0xc0, 0xff, 0, 41, 0, 7, 0, 0, 0, 60, 0, 4, 1, 2, 3, 4,
    0, 0, 1, 0, 1, 0, 1, 0x51, 0x80, 0, 0,
    0x2a]

theorem walk_goes_by_lengths_only_sample :
    disguisedSample ≠ Message.sample.encode ∧
      walk disguisedSample = walk Message.sample.encode ∧
      ∃ message : Message,
        message.encode.extract 0 (disguisedSample.extract 0 30).size =
          disguisedSample.extract 0 30 := by
  obtain ⟨hwalk, _, hbegins, hlayout⟩ := walk_goes_by_lengths_only
  have hagree : ∀ offset < Message.sample.recordsEnd,
      Layout.HoldsLength offset 0 Message.sample.pieces →
        disguisedSample[offset]? = Message.sample.encode[offset]? := by
    decide
  obtain ⟨message, hmessage, _⟩ := hbegins (disguisedSample.extract 0 30) (by decide) (by decide)
  refine ⟨by decide, hwalk _ _ (by decide) (by decide) (by decide) (by decide) ?_,
    message, hmessage⟩
  intro offset h
  obtain ⟨place, hcovers, hlength⟩ := (hlayout Message.sample (by decide) offset).1 h
  have hlt := (Layout.Covers.bounds hcovers).2.2
  rw [Message.length_pieces, Nat.zero_add] at hlt
  exact hagree offset hlt ⟨place, hcovers, hlength⟩

end DnsMatch.Wire
