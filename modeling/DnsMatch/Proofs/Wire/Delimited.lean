import DnsMatch.Proofs.Wire.Name

/-! # What is written is read in one way only

An encoding is delimited if it shows where it ends: two encodings that are the
same up to what follows them are encodings of the same value. Labels, names,
questions and records are written so, and with the counts of the header this
makes the encoding of a message injective (`Message.encode_injective`). -/

namespace DnsMatch.Wire

def Delimited {α : Type} (encode : α → List UInt8) : Prop :=
  ∀ x y rest rest', encode x ++ rest = encode y ++ rest' → x = y ∧ rest = rest'

/-- Rows of the same length are told from what follows them. -/
theorem Delimited.flatMap {α : Type} {encode : α → List UInt8} (h : Delimited encode)
    {xs ys : List α} {rest rest' : List UInt8} (hlength : xs.length = ys.length)
    (heq : xs.flatMap encode ++ rest = ys.flatMap encode ++ rest') : xs = ys ∧ rest = rest' := by
  induction xs generalizing ys with
  | nil =>
    have hnil : ys = [] := List.length_eq_zero_iff.1 hlength.symm
    subst hnil
    exact ⟨rfl, heq⟩
  | cons x xs ih =>
    cases ys with
    | nil => simp at hlength
    | cons y ys =>
      simp only [List.flatMap_cons, List.append_assoc] at heq
      obtain ⟨hxy, hrest⟩ := h x y _ _ heq
      obtain ⟨hxs, hrest⟩ := ih (by simpa using hlength) hrest
      exact ⟨by rw [hxy, hxs], hrest⟩

/-! ## Numbers -/

theorem delimited_ofU16 : Delimited Octets.ofU16 := by
  intro value value' rest rest' h
  obtain ⟨hvalue, hrest⟩ := List.append_inj h rfl
  exact ⟨(Octets.ofNat_of_ofU16 hvalue).symm.trans (Octets.ofNat_of_ofU16 rfl), hrest⟩

theorem delimited_ofU32 : Delimited Octets.ofU32 := by
  intro value value' rest rest' h
  unfold Octets.ofU32 at h
  rw [List.append_assoc, List.append_assoc] at h
  obtain ⟨hhigh, h⟩ := delimited_ofU16 _ _ _ _ h
  obtain ⟨hlow, hrest⟩ := delimited_ofU16 _ _ _ _ h
  have hvalue := value.toNat_lt
  have hvalue' := value'.toNat_lt
  rw [← UInt16.toNat_inj, UInt16.toNat_ofNat', UInt16.toNat_ofNat'] at hhigh hlow
  refine ⟨UInt32.toNat_inj.1 ?_, hrest⟩
  omega

/-- Two lengths below a bound are the same if their numbers of two octets are. -/
theorem length_eq_of_ofNat {α : Type} {xs ys : List α} (hxs : xs.length < 65536)
    (hys : ys.length < 65536) (h : UInt16.ofNat xs.length = UInt16.ofNat ys.length) :
    xs.length = ys.length := by
  rw [← UInt16.toNat_inj, UInt16.toNat_ofNat', UInt16.toNat_ofNat'] at h
  omega

/-! ## Names -/

theorem delimited_label : Delimited Label.encode := by
  intro label label' rest rest' h
  simp only [Label.encode, List.cons_append, List.cons.injEq] at h
  have hlength : label.text.length = label'.text.length := by
    rw [← label.ofNat_length.2.2, ← label'.ofNat_length.2.2, h.1]
  obtain ⟨htext, hrest⟩ := List.append_inj h.2 hlength
  refine ⟨?_, hrest⟩
  cases label
  cases label'
  simpa using htext

theorem delimited_nameEnd : Delimited NameEnd.encode := by
  intro ending ending' rest rest' h
  cases ending with
  | root =>
    cases ending' with
    | root => simpa [NameEnd.encode] using h
    | pointer first' second' hgt' =>
      simp only [NameEnd.encode, List.cons_append, List.cons.injEq] at h
      rw [← h.1] at hgt'
      exact absurd hgt' (by decide)
  | pointer first second hgt =>
    cases ending' with
    | root =>
      simp only [NameEnd.encode, List.cons_append, List.cons.injEq] at h
      rw [h.1] at hgt
      exact absurd hgt (by decide)
    | pointer first' second' hgt' =>
      simpa [NameEnd.encode, and_assoc] using h

/-- A label is not taken for the end of a name. -/
theorem label_encode_ne_ending {label : Label} {ending : NameEnd} {rest rest' : List UInt8} :
    label.encode ++ rest ≠ ending.encode ++ rest' := by
  intro h
  obtain ⟨hzero, hgt, _⟩ := label.ofNat_length
  cases ending with
  | root =>
    simp only [Label.encode, NameEnd.encode, List.cons_append, List.cons.injEq] at h
    exact hzero h.1
  | pointer first second hgt' =>
    simp only [Label.encode, NameEnd.encode, List.cons_append, List.cons.injEq] at h
    exact hgt (h.1 ▸ hgt')

theorem delimited_name : Delimited Name.encode := by
  intro name name' rest rest' h
  obtain ⟨labels, ending⟩ := name
  obtain ⟨labels', ending'⟩ := name'
  simp only [Name.encode, List.append_assoc] at h
  induction labels generalizing labels' with
  | nil =>
    cases labels' with
    | nil =>
      obtain ⟨hending, hrest⟩ := delimited_nameEnd _ _ _ _ h
      exact ⟨by rw [hending], hrest⟩
    | cons label' labels' =>
      simp only [List.flatMap_cons, List.append_assoc] at h
      exact absurd h.symm label_encode_ne_ending
  | cons label labels ih =>
    cases labels' with
    | nil =>
      simp only [List.flatMap_cons, List.append_assoc] at h
      exact absurd h label_encode_ne_ending
    | cons label' labels' =>
      simp only [List.flatMap_cons, List.append_assoc] at h
      obtain ⟨hlabel, h⟩ := delimited_label _ _ _ _ h
      obtain ⟨hname, hrest⟩ := ih labels' h
      rw [Name.mk.injEq] at hname
      exact ⟨by rw [hlabel, hname.1, hname.2], hrest⟩

/-! ## Questions and records -/

theorem delimited_question : Delimited Question.encode := by
  intro question question' rest rest' h
  simp only [Question.encode, List.append_assoc] at h
  obtain ⟨hname, h⟩ := delimited_name _ _ _ _ h
  obtain ⟨hqtype, h⟩ := delimited_ofU16 _ _ _ _ h
  obtain ⟨hqclass, hrest⟩ := delimited_ofU16 _ _ _ _ h
  cases question
  cases question'
  exact ⟨by simp_all, hrest⟩

theorem delimited_record : Delimited Record.encode := by
  intro record record' rest rest' h
  simp only [Record.encode, Record.encodeHead, Record.encodeTail, List.append_assoc] at h
  obtain ⟨howner, h⟩ := delimited_name _ _ _ _ h
  obtain ⟨hrrtype, h⟩ := delimited_ofU16 _ _ _ _ h
  obtain ⟨hrrclass, h⟩ := delimited_ofU16 _ _ _ _ h
  obtain ⟨httl, h⟩ := delimited_ofU32 _ _ _ _ h
  obtain ⟨hrdlength, h⟩ := delimited_ofU16 _ _ _ _ h
  obtain ⟨hrdata, hrest⟩ :=
    List.append_inj h (length_eq_of_ofNat record.rdata_lt record'.rdata_lt hrdlength)
  cases record
  cases record'
  exact ⟨by simp_all, hrest⟩

/-! ## Messages -/

/-- **No two messages are written alike.** -/
theorem Message.encode_injective {message message' : Message}
    (h : message.encode = message'.encode) : message = message' := by
  simp only [Message.encode, Message.encodeHeader, List.append_assoc] at h
  have h := congrArg Array.toList h
  obtain ⟨hid, h⟩ := delimited_ofU16 _ _ _ _ h
  obtain ⟨hflags, h⟩ := delimited_ofU16 _ _ _ _ h
  obtain ⟨hqdcount, h⟩ := delimited_ofU16 _ _ _ _ h
  obtain ⟨hancount, h⟩ := delimited_ofU16 _ _ _ _ h
  obtain ⟨hnscount, h⟩ := delimited_ofU16 _ _ _ _ h
  obtain ⟨harcount, h⟩ := delimited_ofU16 _ _ _ _ h
  have hquestionsLength :=
    length_eq_of_ofNat message.questions_lt message'.questions_lt hqdcount
  have hanswersLength := length_eq_of_ofNat message.answers_lt message'.answers_lt hancount
  have hauthoritiesLength :=
    length_eq_of_ofNat message.authorities_lt message'.authorities_lt hnscount
  have hadditionalsLength :=
    length_eq_of_ofNat message.additionals_lt message'.additionals_lt harcount
  obtain ⟨hquestions, h⟩ := delimited_question.flatMap hquestionsLength h
  have hrecordsLength : message.records.length = message'.records.length := by
    simp only [Message.records, List.length_append]
    omega
  obtain ⟨hrecords, htrailing⟩ := delimited_record.flatMap hrecordsLength h
  -- the counts also say which section each record is in
  simp only [Message.records, List.append_assoc] at hrecords
  obtain ⟨hanswers, hrecords⟩ := List.append_inj hrecords hanswersLength
  obtain ⟨hauthorities, hadditionals⟩ := List.append_inj hrecords hauthoritiesLength
  cases message
  cases message'
  simp_all

end DnsMatch.Wire
