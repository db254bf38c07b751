import DnsMatch.Proofs.Wire.Grammar
import DnsMatch.Wire.Layout

/-! # Which field an octet is in

The fields of a message stand one behind the other from its first octet to the
end of its last record (`Message.length_pieces`), and no octet is in two of
them (`Layout.Covers.unique`). -/

namespace DnsMatch.Wire

namespace Layout

variable {pieces rest : List Piece} {start offset : Nat} {place other : Truncation}

@[simp] theorem length_nil : length [] = 0 := rfl

@[simp] theorem length_cons {piece : Piece} :
    length (piece :: pieces) = piece.2 + length pieces := rfl

@[simp] theorem length_append : length (pieces ++ rest) = length pieces + length rest := by
  induction pieces with
  | nil => simp
  | cons piece pieces ih => simp [ih, Nat.add_assoc]

@[simp] theorem not_covers_nil : ¬Covers offset place start [] := id

@[simp] theorem covers_cons {field : Field} {width : Nat} :
    Covers offset place start ((field, width) :: pieces) ↔
      (place = ⟨field, start⟩ ∧ start ≤ offset ∧ offset < start + width) ∨
        Covers offset place (start + width) pieces := Iff.rfl

@[simp] theorem covers_append :
    Covers offset place start (pieces ++ rest) ↔
      Covers offset place start pieces ∨ Covers offset place (start + length pieces) rest := by
  induction pieces generalizing start with
  | nil => simp
  | cons piece pieces ih =>
    obtain ⟨field, width⟩ := piece
    simp only [List.cons_append, covers_cons, ih, length_cons, or_assoc, Nat.add_assoc]

/-- A field of a row starts in it, and its octets are octets of the row. -/
theorem Covers.bounds (h : Covers offset place start pieces) :
    start ≤ place.offset ∧ place.offset ≤ offset ∧ offset < start + length pieces := by
  induction pieces generalizing start with
  | nil => exact absurd h not_covers_nil
  | cons piece pieces ih =>
    rw [length_cons]
    rcases h with ⟨rfl, hle, hlt⟩ | hrest
    · exact ⟨Nat.le_refl _, hle, by omega⟩
    · have := ih hrest
      omega

/-- No octet is in two fields of a row. -/
theorem Covers.unique (h : Covers offset place start pieces)
    (h' : Covers offset other start pieces) : other = place := by
  induction pieces generalizing start with
  | nil => exact absurd h not_covers_nil
  | cons piece pieces ih =>
    rcases h with ⟨rfl, _, hlt⟩ | hrest
    · rcases h' with ⟨rfl, _, _⟩ | hrest'
      · rfl
      · have := hrest'.bounds
        omega
    · rcases h' with ⟨rfl, _, hlt⟩ | hrest'
      · have := hrest.bounds
        omega
      · exact ih hrest hrest'

end Layout

/-! ## The fields of a message -/

theorem Name.pieces_cons (label : Label) (labels : List Label) (ending : NameEnd) :
    (Name.mk (label :: labels) ending).pieces =
      (.labelLength, 1) :: (.label, label.text.length) :: (Name.mk labels ending).pieces := by
  simp [Name.pieces, Label.pieces]

@[simp] theorem Name.length_pieces (name : Name) :
    Layout.length name.pieces = name.encode.length := by
  obtain ⟨labels, ending⟩ := name
  induction labels with
  | nil => cases ending <;> rfl
  | cons label labels ih =>
    rw [Name.pieces_cons, Name.encode_cons, Layout.length_cons, Layout.length_cons, ih,
      List.length_cons, List.length_append]
    omega

@[simp] theorem Question.length_pieces (question : Question) :
    Layout.length question.pieces = question.encode.length := by
  simp [Question.pieces, Question.length_encode]

@[simp] theorem Record.length_pieces (record : Record) :
    Layout.length record.pieces = record.encode.length := by
  simp [Record.pieces, Record.length_encode, Record.length_encodeHead]
  omega

/-- The fields of a row of values have as many octets as the values. -/
theorem Layout.length_flatMap {α : Type} {pieces : α → List Piece} {encode : α → List UInt8}
    (h : ∀ x, Layout.length (pieces x) = (encode x).length) (xs : List α) :
    Layout.length (xs.flatMap pieces) = (xs.flatMap encode).length := by
  induction xs with
  | nil => rfl
  | cons x xs ih =>
    rw [List.flatMap_cons, List.flatMap_cons, Layout.length_append, List.length_append, h, ih]

namespace Message

variable (message : Message)

theorem length_pieces : Layout.length message.pieces = message.recordsEnd := by
  rw [recordsEnd, recordsStart_eq]
  simp only [pieces, List.cons_append, Layout.length_cons, Layout.length_append,
    Layout.length_flatMap Question.length_pieces, Layout.length_flatMap Record.length_pieces]
  exact (Nat.add_assoc _ _ _).symm

end Message

end DnsMatch.Wire
