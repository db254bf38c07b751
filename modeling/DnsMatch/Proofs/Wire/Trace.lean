import DnsMatch.Proofs.Log
import DnsMatch.Proofs.Wire.Continuation
import DnsMatch.Proofs.Wire.Window

/-! # The log of a walk is a trace of it

The loop over the records collects what it tells, so first it is put as a chain
of records that each tell of themselves (`tellRecords`). What is told of a
message that is walked is then what there is to tell of its counts, of its
records one behind the other, and of what follows them. The walk of a message
that is cut off follows the walk of the whole, so what it tells until it fails is
the beginning of what the whole tells. -/

namespace DnsMatch.Wire

open Logged (Follows IsSilent)

variable {octets cut : Octets} {ttlOffsets : List Nat} {cursor start stop count : Nat}

/-! ## The walk as a chain that tells -/

def tellRecords (octets : Octets) : Nat → Nat → Logged Truncation (List Nat × Nat)
  | 0, cursor => pure ([], cursor)
  | count + 1, cursor => do
    let extent ← skipRecord octets cursor
    let (ttlOffsets, stop) ← tellRecords octets count extent.stop
    return (extent.ttlOffset :: ttlOffsets, stop)

/-- The loop tells what it was given, and then of its own records. -/
theorem log_skipRecords (collected : Array Nat) (entries : Array Log.Entry) :
    (skipRecords octets count cursor collected entries).log =
      entries.toList ++ (tellRecords octets count cursor).log := by
  induction count generalizing cursor collected entries with
  | zero => simp [skipRecords, tellRecords]
  | succ count ih =>
    simp only [skipRecords, tellRecords]
    cases hrecord : (skipRecord octets cursor).result with
    | error truncation => simp [Logged.bind_of_error hrecord]
    | ok extent =>
      have hrest : (tellRecords octets count extent.stop >>= fun passed =>
          pure (extent.ttlOffset :: passed.1, passed.2)).log =
            (tellRecords octets count extent.stop).log :=
        Logged.log_bind_of_log_eq_nil fun _ => rfl
      rw [Logged.bind_of_ok hrecord]
      simp only [ih, hrest, Array.toList_appendList, List.append_assoc]

/-- The walk up to the end of the last record. -/
def tellToEnd (octets : Octets) : Logged Truncation (List Nat × Nat) := do
  let counts ← Counts.read octets
  Logged.write (countsEntry counts)
  let recordsStart ← skipQuestions octets counts.qdcount.toNat headerLength
  tellRecords octets counts.records recordsStart

def trailingEntries (octets : Octets) (stop : Nat) : List Log.Entry :=
  if stop < octets.size then [trailingEntry (octets.size - stop)] else []

/-- Before the end of the last record the walk tells what the chain does. -/
theorem log_walkLogged (octets : Octets) :
    (walkLogged octets).log = (tellToEnd octets).log ++
      match walkToEnd octets with
      | .error _ => []
      | .ok (_, stop) => trailingEntries octets stop := by
  simp only [walkLogged, tellToEnd, walkToEnd, Logged.log_bind, Logged.result_lift,
    Logged.log_lift, Logged.result_write, Logged.log_write]
  cases hcounts : Counts.read octets with
  | error truncation => rfl
  | ok counts =>
    simp only [ok_bind]
    cases hquestions : skipQuestions octets counts.qdcount.toNat headerLength with
    | error truncation => rfl
    | ok recordsStart =>
      simp only [ok_bind, log_skipRecords, result_skipRecords]
      cases hrecords : passRecords octets counts.records recordsStart with
      | error truncation => simp [Except.map]
      | ok passed =>
        simp only [Except.map, trailingEntries, List.nil_append, List.append_assoc]
        split
        · rfl
        · rfl

/-! ## What is told of a message -/

namespace Record

def startsFrom (start : Nat) : List Record → List Nat
  | [] => []
  | record :: records => start :: startsFrom (start + record.encode.length) records

@[simp] theorem length_startsFrom (start : Nat) (records : List Record) :
    (startsFrom start records).length = records.length := by
  induction records generalizing start with
  | nil => rfl
  | cons record records ih => simp [startsFrom, ih]

/-- What is told of a record: the number that stands where the TTL does, and before that, of an OPT
record, where that is. -/
def entries (octets : Octets) (record : Record) (start ttlOffset : Nat) : List Log.Entry :=
  (if record.rrtype = optType then [optEntry start ttlOffset] else []) ++
    [ttlEntry start (octets.u32At ttlOffset)]

def entriesOfAll (octets : Octets) (records : List Record) (starts ttlOffsets : List Nat) :
    List Log.Entry :=
  (records.zip (starts.zip ttlOffsets)).flatMap fun (record, start, ttlOffset) =>
    record.entries octets start ttlOffset

end Record

theorem log_skipRecordTtl {ttl : UInt32} {ttlOffset ttlEnd : Nat}
    (h : readU32 octets ttlOffset .ttl = .ok (ttl, ttlEnd)) :
    (skipRecordTtl octets start ttlOffset).log = [ttlEntry start ttl] := by
  rw [skipRecordTtl, Logged.bind_of_ok h]
  rfl

theorem log_skipRecordFields {type : UInt16} {ownerEnd typeEnd ttlOffset : Nat}
    (htype : readU16 octets ownerEnd .recordFields = .ok (type, typeEnd))
    (hfields : skip octets ownerEnd typeAndClassLength .recordFields = .ok ttlOffset) :
    (skipRecordFields octets start ownerEnd).log =
      (if type = optType then [optEntry start ttlOffset] else []) ++
        (skipRecordTtl octets start ttlOffset).log := by
  simp only [skipRecordFields, Logged.log_bind, Logged.log_lift, Logged.result_lift, htype, hfields]
  split
  · rw [Logged.bind_of_ok rfl]
    rfl
  · rfl

theorem log_skipRecord {ownerEnd : Nat} (howner : skipName octets start = .ok ownerEnd) :
    (skipRecord octets start).log = (skipRecordFields octets start ownerEnd).log := by
  rw [skipRecord, Logged.bind_of_ok howner]
  rfl

theorem log_skipRecord_of_spells {record : Record} (h : octets.Spells start record.encode)
    (hadmits : octets.Admits (start + record.encode.length)) :
    (skipRecord octets start).log =
      record.entries octets start (start + record.encodeHead.length) := by
  obtain ⟨howner, htype, hfields, httl, -, -⟩ := Record.reads_of_spells h hadmits rfl
  rw [Record.length_encodeHead, ← Nat.add_assoc]
  generalize start + record.owner.encode.length = ownerEnd at *
  have hvalue : octets.u32At (ownerEnd + 4) = record.ttl := by
    obtain ⟨hspells, -, hadmitsEnd⟩ := readU32_eq_ok_iff.1 httl
    exact (Octets.spells_ofU32_iff hadmitsEnd.1).1 hspells
  rw [log_skipRecord howner, log_skipRecordFields htype hfields, log_skipRecordTtl httl,
    Record.entries, hvalue]

/-- Records that are written one behind the other are each told of. -/
theorem log_tellRecords_of_spells {records : List Record}
    (h : octets.Spells start (records.flatMap Record.encode))
    (hadmits : octets.Admits (start + (records.flatMap Record.encode).length)) :
    (tellRecords octets records.length start).log =
      Record.entriesOfAll octets records (Record.startsFrom start records)
        (Record.ttlOffsetsFrom start records) := by
  induction records generalizing start with
  | nil => rfl
  | cons record records ih =>
    simp only [List.flatMap_cons, Octets.spells_append, List.length_append,
      ← Nat.add_assoc] at h hadmits
    have hfirst : octets.Admits (start + record.encode.length) := hadmits.mono (by omega)
    rw [List.length_cons, tellRecords, Logged.bind_of_ok (skipRecord_of_spells h.1 hfirst),
      Logged.log_bind_of_log_eq_nil fun _ => rfl, log_skipRecord_of_spells h.1 hfirst,
      ih h.2 hadmits]
    rfl

/-! ## What is told of a message that is cut off -/

section Cut

variable (hagree : Octets.AgreeBelow cut.size cut octets)

include hagree

theorem skipRecordData_of_cut {ttlOffset ttlEnd : Nat} {extent : RecordExtent}
    (h : skipRecordData cut ttlOffset ttlEnd = .ok extent) :
    skipRecordData octets ttlOffset ttlEnd = .ok extent := by
  obtain ⟨⟨rdlength, rdataStart⟩, hrdlength, hstop⟩ := bind_eq_ok_iff.1 h
  obtain ⟨stop, hrdata, hextent⟩ := bind_eq_ok_iff.1 hstop
  simp only [skipRecordData, readU16_of_cut hagree hrdlength, ok_bind, skip_of_cut hagree hrdata]
  exact hextent

theorem follows_skipRecordTtl (start ttlOffset : Nat) :
    Follows (skipRecordTtl cut start ttlOffset) (skipRecordTtl octets start ttlOffset) := by
  refine (Follows.lift fun _ => readU32_of_cut hagree).bind fun (ttl, ttlEnd) _ => ?_
  refine (Follows.refl (Logged.write (ttlEntry start ttl))).bind fun _ _ => ?_
  exact Follows.lift fun _ => skipRecordData_of_cut hagree

theorem follows_skipRecordFields (start ownerEnd : Nat) :
    Follows (skipRecordFields cut start ownerEnd) (skipRecordFields octets start ownerEnd) := by
  refine (Follows.lift fun _ => readU16_of_cut hagree).bind fun (type, _) _ => ?_
  refine (Follows.lift fun _ => skip_of_cut hagree).bind fun ttlOffset _ => ?_
  have httl := follows_skipRecordTtl hagree start ttlOffset
  dsimp only
  split
  · exact (Follows.refl (Logged.write (optEntry start ttlOffset))).bind fun _ _ => httl
  · exact httl

theorem follows_skipRecord (start : Nat) :
    Follows (skipRecord cut start) (skipRecord octets start) :=
  (Follows.lift fun _ => skipName_of_cut hagree).bind fun ownerEnd _ =>
    follows_skipRecordFields hagree start ownerEnd

theorem follows_tellRecords (count cursor : Nat) :
    Follows (tellRecords cut count cursor) (tellRecords octets count cursor) := by
  induction count generalizing cursor with
  | zero => exact Follows.refl _
  | succ count ih =>
    refine (follows_skipRecord hagree cursor).bind fun extent _ => ?_
    exact (ih extent.stop).bind fun _ _ => Follows.refl _

theorem follows_tellToEnd : Follows (tellToEnd cut) (tellToEnd octets) := by
  refine (Follows.lift fun _ => Counts.read_of_cut hagree).bind fun counts _ => ?_
  refine (Follows.refl (Logged.write (countsEntry counts))).bind fun _ _ => ?_
  refine (Follows.lift fun _ => skipQuestions_of_cut hagree).bind fun recordsStart _ => ?_
  exact follows_tellRecords hagree counts.records recordsStart

/-- A walk that fails has told the beginning of what the walk of the whole tells. -/
theorem isPrefix_log_walkLogged {truncation : Truncation} (h : walk cut = .error truncation) :
    (walkLogged cut).log <+: (walkLogged octets).log := by
  rw [log_walkLogged cut, log_walkLogged octets, walk_eq_error_iff.1 h, List.append_nil]
  exact (follows_tellToEnd hagree).isPrefix_log.trans (List.prefix_append _ _)

end Cut

/-- Only a walk that fails in the header tells nothing. -/
theorem log_walkLogged_eq_nil_iff (octets : Octets) :
    (walkLogged octets).log = [] ↔ octets.size < headerLength := by
  by_cases hheader : octets.size < headerLength
  · have hcounts : Counts.read octets = .error ⟨.header, 0⟩ := by
      rw [Counts.read, skip_cut (by omega), error_bind]
    rw [walkLogged, Logged.bind_of_error hcounts]
    exact iff_of_true rfl hheader
  · have hcounts := read_headerCounts (Nat.le_of_not_lt hheader)
    rw [walkLogged, Logged.bind_of_ok hcounts, Logged.bind_of_ok rfl]
    exact iff_of_false (List.cons_ne_nil _ _) hheader

/-! ## What is not shown as a warning -/

namespace Message

variable (message : Message)

def recordStarts : List Nat :=
  Record.startsFrom message.recordsStart message.records

theorem size_encode : message.encode.size = message.recordsEnd + message.trailing.length := by
  simp only [recordsEnd, recordsStart, encode, List.size_toArray, List.length_append]

theorem log_tellToEnd_encode (hmax : message.recordsEnd ≤ Offset.max) :
    (tellToEnd message.encode).log = countsEntry message.counts ::
      Record.entriesOfAll message.encode message.records message.recordStarts
        message.ttlOffsets := by
  obtain ⟨hcounts, hquestions, _⟩ := passes_of_agreeBelow message hmax fun _ _ => rfl
  obtain ⟨_, _, hrecords, hsize⟩ := message.encode_spells
  rw [tellToEnd, Logged.bind_of_ok hcounts, Logged.bind_of_ok rfl, Logged.bind_of_ok hquestions,
    ← message.length_records, log_tellRecords_of_spells hrecords ⟨hsize, hmax⟩]
  rfl

theorem trailingEntries_encode : trailingEntries message.encode message.recordsEnd =
    if message.trailing = [] then [] else [trailingEntry message.trailing.length] := by
  rw [trailingEntries, message.size_encode, Nat.add_sub_cancel_left]
  cases message.trailing with
  | nil => simp
  | cons octet trailing => simp

/-- What the walk tells of a message, from the counts to what follows the last record. -/
theorem log_walkLogged_encode (hmax : message.recordsEnd ≤ Offset.max) :
    (walkLogged message.encode).log =
      countsEntry message.counts ::
        Record.entriesOfAll message.encode message.records message.recordStarts
          message.ttlOffsets ++
        if message.trailing = [] then [] else [trailingEntry message.trailing.length] := by
  obtain ⟨hcounts, hquestions, hrecords⟩ := passes_of_agreeBelow message hmax fun _ _ => rfl
  have hwalk : walkToEnd message.encode = .ok (message.ttlOffsets, message.recordsEnd) := by
    rw [walkToEnd, hcounts, ok_bind, hquestions, ok_bind, hrecords]
  rw [log_walkLogged, hwalk, message.log_tellToEnd_encode hmax, ← message.trailingEntries_encode]

end Message

/-- **The log of a walk is a trace of its result.** With nothing left out, the log of a message that
is walked has its counts, and then for each record in order where the record starts and the number
that stands at its TTL offset, before which an OPT record, and no other, is told to have that
offset; and last how many octets follow the records, if any do. A beginning of the message that is
not walked has a log that is the beginning of this one, and is empty exactly if the header is cut
off. -/
theorem walk_log_traces_result (h : walk octets = .ok ttlOffsets) :
    (∃ message : Message, message.encode = octets ∧ message.ttlOffsets = ttlOffsets ∧
      message.recordStarts.length = message.records.length ∧
      ttlOffsets.length = message.records.length ∧
      (Log.Threshold.upTo .trace).filter (walkLogged octets).log =
        ⟨.trace, "Walking a message with " ++
          ("Counts \x7b qdcount: " ++ toString message.questions.length ++
            ", ancount: " ++ toString message.answers.length ++
            ", nscount: " ++ toString message.authorities.length ++
            ", arcount: " ++ toString message.additionals.length ++ " \x7d") ++ "."⟩ ::
          (message.records.zip (message.recordStarts.zip ttlOffsets)).flatMap
            (fun (record, start, ttlOffset) =>
              (if record.rrtype = 41 then
                [⟨.debug, "The OPT record at offset " ++ toString start ++
                  " has its extended RCODE and flags at " ++ toString ttlOffset ++
                  "; they will be ignored like a TTL."⟩]
                else []) ++
                [⟨.trace, "The record at offset " ++ toString start ++ " has a TTL of " ++
                  toString (octets.u32At ttlOffset).toNat ++ "."⟩]) ++
          if message.trailing = [] then []
          else [⟨.trace, toString message.trailing.length ++
            " octets follow the last record."⟩]) ∧
    ∀ cut more : Octets, cut ++ more = octets →
      ∀ truncation, walk cut = .error truncation →
        (Log.Threshold.upTo .trace).filter (walkLogged cut).log <+:
          (Log.Threshold.upTo .trace).filter (walkLogged octets).log ∧
        ((Log.Threshold.upTo .trace).filter (walkLogged cut).log = [] ↔ cut.size < 12) := by
  simp only [Log.Threshold.filter_trace]
  constructor
  · obtain ⟨message, rfl, rfl, hmax⟩ := walk_eq_ok_iff.1 h
    refine ⟨message, rfl, rfl, Record.length_startsFrom _ _, Record.length_ttlOffsetsFrom _ _, ?_⟩
    rw [message.length_questions, message.length_answers, message.length_authorities,
      message.length_additionals]
    exact message.log_walkLogged_encode hmax
  · rintro cut more rfl truncation hcut
    exact ⟨isPrefix_log_walkLogged (Octets.agreeBelow_append cut more) hcut,
      log_walkLogged_eq_nil_iff cut⟩

def Message.sampleLog : List Log.Entry :=
  [⟨.trace, "Walking a message with " ++
      "Counts \x7b qdcount: 1, ancount: 1, nscount: 0, arcount: 1 \x7d."⟩,
    ⟨.trace, "The record at offset 19 has a TTL of 300."⟩,
    ⟨.debug, "The OPT record at offset 35 has its extended RCODE and flags at 40; " ++
      "they will be ignored like a TTL."⟩,
    ⟨.trace, "The record at offset 35 has a TTL of 0."⟩,
    ⟨.trace, "1 octets follow the last record."⟩]

/-- The sample and its beginning up to the middle of what its OPT record has for a TTL. -/
theorem walk_log_traces_result_sample :
    walk Message.sample.encode = .ok [25, 40] ∧
      (Log.Threshold.upTo .trace).filter (walkLogged Message.sample.encode).log =
        Message.sampleLog ∧
      (Log.Threshold.upTo .trace).filter (walkLogged (Message.sample.encode.extract 0 42)).log <+:
        Message.sampleLog := by
  obtain ⟨⟨message, hencode, _, _, _, hlog⟩, hcut⟩ := walk_log_traces_result walk_sample
  obtain rfl := Message.encode_injective hencode
  have hwalk : walk (Message.sample.encode.extract 0 42) = .error ⟨.ttl, 40⟩ :=
    Message.walk_extract (by decide) (by decide) (by decide)
  have hprefix := (hcut (Message.sample.encode.extract 0 42) (Message.sample.encode.extract 42 47)
    (by decide) _ hwalk).1
  rw [hlog] at hprefix ⊢
  exact ⟨walk_sample, rfl, hprefix⟩

end DnsMatch.Wire
