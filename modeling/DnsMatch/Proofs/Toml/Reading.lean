import DnsMatch.Toml.Parse

/-! # Documents are read to their end

Each reader passes something of its text, so it can go down only so far. What it
gives with any number of steps, it also gives with as many as the length of the
text calls for (`IsSettled`), and so a document is refused for what is in its
text and never for want of steps (`Document.ofText?_eq_some_iff`).

A text that begins with no byte order mark and has no carriage return in it is
read just as it stands, and so are the octets of a text. -/

namespace DnsMatch.Toml

variable {text rest left : List Char} {c : Char} {string : String}

/-! ## What is passed -/

theorem length_skipSpaces_le (text : List Char) : (skipSpaces text).length ≤ text.length :=
  (List.dropWhile_suffix isSpace).length_le

theorem length_le_of_skipVoid {comment : Bool} (h : skipVoid comment text = some left) :
    left.length ≤ text.length := by
  fun_induction skipVoid comment text with
  | case1 => cases h; exact Nat.le_refl 0
  | _ => grind

theorem length_le_of_skipLineEnd (h : skipLineEnd text = some left) :
    left.length ≤ text.length := by
  have hspaces := length_skipSpaces_le text
  unfold skipLineEnd at h
  split at h
  · cases h
    exact Nat.zero_le _
  · next c rest heq =>
    rw [heq, List.length_cons] at hspaces
    split at h
    · cases h
      omega
    · split at h
      · have hvoid := length_le_of_skipVoid h
        omega
      · cases h

namespace Quoted

variable {style : Style} {phase : Phase} {value : List Char}

/-- A character of a string is followed by more of it, or by what is behind the string. -/
theorem read_cons (h : read style phase value (c :: rest) = some (string, left)) :
    (∃ phase' value', read style phase' value' rest = some (string, left)) ∨
      ∃ count, left = rest.drop count := by
  unfold read at h
  dsimp only at h
  repeat' split at h
  all_goals first
    | exact .inl ⟨_, _, h⟩
    | cases h
  · exact .inr ⟨0, rfl⟩
  · exact .inr ⟨_, List.drop_drop⟩

theorem length_lt_of_read (h : read style phase value text = some (string, left)) :
    left.length < text.length := by
  induction text generalizing phase value with
  | nil => cases h
  | cons c rest ih =>
    obtain ⟨_, _, hrest⟩ | ⟨count, rfl⟩ := read_cons h
    · exact Nat.lt_succ_of_lt (ih hrest)
    · rw [List.length_drop, List.length_cons]
      omega

theorem length_lt_of_read? (h : read? text = some (style, string, left)) :
    left.length < text.length := by
  cases text with
  | nil => cases h
  | cons quote rest =>
    have hbody : ∀ {style' : Style} {body : List Char}, body.length ≤ rest.length →
        (read style' .text [] body).map (style', ·) = some (style, string, left) →
          left.length < (quote :: rest).length := by
      intro style' body hle hread
      obtain ⟨_, hread, heq⟩ := Option.map_eq_some_iff.1 hread
      cases heq
      exact Nat.lt_succ_of_lt (Nat.lt_of_lt_of_le (length_lt_of_read hread) hle)
    unfold read? at h
    dsimp only at h
    repeat' split at h
    · cases h
    · exact hbody (by simp) h
    · exact hbody (by simp) h
    · exact hbody (Nat.le_refl _) h

end Quoted

theorem Scalar.length_lt_of_read? (h : Scalar.read? text = some (string, left)) :
    left.length < text.length := by
  unfold read? at h
  dsimp only at h
  split at h
  · next hscalar =>
    cases h
    have hspelling : spelling text ≠ [] := by
      intro hnil
      rw [hnil] at hscalar
      revert hscalar
      decide
    have htext : text ≠ [] := by
      rintro rfl
      exact hspelling rfl
    have := List.length_pos_iff.2 hspelling
    have := List.length_pos_iff.2 htext
    rw [List.length_drop]
    omega
  · cases h

theorem length_lt_of_readKeyPart (h : readKeyPart text = some (string, left)) :
    left.length < text.length := by
  unfold readKeyPart at h
  split at h
  · next hquoted =>
    split at h
    · cases h
    · cases h
      exact Quoted.length_lt_of_read? hquoted
  · dsimp only at h
    split at h
    · cases h
    · next hpart =>
      cases h
      have hle := (List.takeWhile_prefix inBareKey (l := text)).length_le
      rw [List.isEmpty_iff, ← List.length_eq_zero_iff] at hpart
      rw [List.length_drop]
      omega

theorem length_lt_of_readSimple {value : Value} (h : readSimple text = some (value, left)) :
    left.length < text.length := by
  unfold readSimple at h
  split at h
  · next hquoted =>
    cases h
    exact Quoted.length_lt_of_read? hquoted
  · obtain ⟨_, hscalar, heq⟩ := Option.map_eq_some_iff.1 h
    cases heq
    exact Scalar.length_lt_of_read? hscalar

/-! ## Two readings that give the same -/

section ReadsAs

variable {α β : Type} {bound : Nat}

/-- Whether what one reading gives leaves less than so many characters, and another gives it too. -/
def ReadsAs (bound : Nat) (first second : Option (α × List Char)) : Prop :=
  ∀ value rest, first = some (value, rest) → rest.length < bound ∧ second = some (value, rest)

namespace ReadsAs

variable {first second : Option (α × List Char)}

theorem none : ReadsAs bound Option.none second := nofun

theorem some {value : α} (h : rest.length < bound) :
    ReadsAs bound (Option.some (value, rest)) (Option.some (value, rest)) := by
  rintro _ _ ⟨⟩
  exact ⟨h, rfl⟩

theorem refl (h : ∀ {value rest}, first = Option.some (value, rest) → rest.length < bound) :
    ReadsAs bound first first :=
  fun _ _ hfirst => ⟨h hfirst, hfirst⟩

theorem bind {bound' : Nat} {next next' : α × List Char → Option (β × List Char)}
    (h : ReadsAs bound first second)
    (hnext : ∀ value rest, rest.length < bound →
      ReadsAs bound' (next (value, rest)) (next' (value, rest))) :
    ReadsAs bound' (first >>= next) (second >>= next') := by
  intro value rest hread
  obtain ⟨⟨middle, behind⟩, hfirst, hrest⟩ := Option.bind_eq_some_iff.1 hread
  obtain ⟨hlt, rfl⟩ := h _ _ hfirst
  exact hnext _ _ hlt _ _ hrest

/-- Two readings begin by passing the same. -/
theorem behind {passed : Option (List Char)} {next next' : List Char → Option (β × List Char)}
    (h : ∀ left, passed = Option.some left → ReadsAs bound (next left) (next' left)) :
    ReadsAs bound (passed >>= next) (passed >>= next') := by
  intro value rest hread
  obtain ⟨left, rfl, hrest⟩ := Option.bind_eq_some_iff.1 hread
  exact h left rfl _ _ hrest

end ReadsAs

/-- Whether a reader that goes down so many steps gives nothing that it does not give with two steps
for each character of its text, and some more. -/
def IsSettled (read : Nat → List Char → Option (α × List Char)) (more steps : Nat) : Prop :=
  ∀ text steps', 2 * text.length + more ≤ steps' →
    ReadsAs text.length (read steps text) (read steps' text)

end ReadsAs

/-! ## The readers -/

variable {steps steps' : Nat}

theorem isSettled_readKey (steps : Nat) : IsSettled readKey 0 steps := by
  induction steps with
  | zero => exact fun _ _ _ => .none
  | succ steps ih =>
    intro text steps' hle
    cases steps' with
    | zero =>
      obtain rfl : text = [] := List.eq_nil_of_length_eq_zero (by omega)
      exact .none
    | succ steps' =>
      rw [readKey, readKey]
      refine (ReadsAs.refl length_lt_of_readKeyPart).bind fun part rest hrest => ?_
      have hspaces := length_skipSpaces_le rest
      dsimp only
      split
      · next behind heq =>
        rw [heq, List.length_cons] at hspaces
        have hbehind := length_skipSpaces_le behind
        refine (ih _ steps' (by omega)).bind fun parts rest' hrest' => ?_
        dsimp only
        exact .some (by omega)
      · exact .some (by omega)

theorem isSettled_readKeyAndSign (steps : Nat) : IsSettled readKeyAndSign 0 steps := by
  intro text steps' hle
  refine (isSettled_readKey steps text steps' hle).bind fun key rest hrest => ?_
  split
  · next behind heq =>
    cases heq
    have hspaces := length_skipSpaces_le behind
    rw [List.length_cons] at hrest
    exact .some (by omega)
  · exact .none

/-! ### Values -/

section Values

variable (hvalue : IsSettled readValue 0 steps)
  (hitems : IsSettled readItems 1 steps)
  (hentries : IsSettled readEntries 1 steps)

include hitems hentries in
theorem isSettled_readValue_succ : IsSettled readValue 0 (steps + 1) := by
  intro text steps' hle
  cases steps' with
  | zero =>
    obtain rfl : text = [] := List.eq_nil_of_length_eq_zero (by omega)
    exact .none
  | succ steps' =>
    unfold readValue
    dsimp only
    split
    · next rest =>
      rw [List.length_cons] at hle ⊢
      refine (hitems rest steps' (by omega)).bind fun items rest' hrest' => ?_
      dsimp only
      exact .some (by omega)
    · next rest =>
      have hspaces := length_skipSpaces_le rest
      rw [List.length_cons] at hle ⊢
      split
      · next heq =>
        rw [heq, List.length_cons] at hspaces
        exact .some (by omega)
      · refine (hentries _ steps' (by omega)).bind fun entries rest' hrest' => ?_
        dsimp only
        exact .some (by omega)
    · exact .refl length_lt_of_readSimple

include hvalue hitems in
theorem isSettled_readItems_succ : IsSettled readItems 1 (steps + 1) := by
  intro text steps' hle
  cases steps' with
  | zero => cases hle
  | succ steps' =>
    rw [readItems, readItems]
    refine .behind fun left hleft => ?_
    have hleft := length_le_of_skipVoid hleft
    split
    · rw [List.length_cons] at hleft
      exact .some (by omega)
    · refine (hvalue left steps' (by omega)).bind fun item rest hrest => ?_
      refine .behind fun behind hbehind => ?_
      have hbehind := length_le_of_skipVoid hbehind
      split
      · rw [List.length_cons] at hbehind
        refine (hitems _ steps' (by omega)).bind fun items rest' hrest' => ?_
        dsimp only
        exact .some (by omega)
      · rw [List.length_cons] at hbehind
        exact .some (by omega)
      · exact .none

include hvalue hentries in
theorem isSettled_readEntries_succ : IsSettled readEntries 1 (steps + 1) := by
  intro text steps' hle
  cases steps' with
  | zero => cases hle
  | succ steps' =>
    rw [readEntries, readEntries]
    refine (isSettled_readKeyAndSign steps text steps' (by omega)).bind
      fun key rest hrest => ?_
    refine (hvalue rest steps' (by omega)).bind fun value behind hbehind => ?_
    have hspaces := length_skipSpaces_le behind
    dsimp only
    split
    · next more heq =>
      rw [heq, List.length_cons] at hspaces
      have hmore := length_skipSpaces_le more
      refine (hentries _ steps' (by omega)).bind fun entries rest' hrest' => ?_
      dsimp only
      exact .some (by omega)
    · next heq =>
      rw [heq, List.length_cons] at hspaces
      exact .some (by omega)
    · exact .none

end Values

theorem isSettled_values (steps : Nat) : IsSettled readValue 0 steps ∧
    IsSettled readItems 1 steps ∧ IsSettled readEntries 1 steps := by
  induction steps with
  | zero => exact ⟨fun _ _ _ => .none, fun _ _ _ => .none, fun _ _ _ => .none⟩
  | succ steps ih =>
    obtain ⟨hvalue, hitems, hentries⟩ := ih
    exact ⟨isSettled_readValue_succ hitems hentries, isSettled_readItems_succ hvalue hitems,
      isSettled_readEntries_succ hvalue hentries⟩

/-! ### Lines -/

theorem isSettled_readEntry (steps : Nat) : IsSettled readEntry 0 steps := by
  intro text steps' hle
  refine (isSettled_readKeyAndSign steps text steps' hle).bind fun key rest hrest => ?_
  refine ((isSettled_values steps).1 rest steps' (by omega)).bind fun value behind hbehind => ?_
  refine .behind fun left hleft => ?_
  have hleft := length_le_of_skipLineEnd hleft
  exact .some (by omega)

theorem isSettled_readHeading (steps : Nat) : IsSettled readHeading 0 steps := by
  intro text steps' hle
  have hline : ∀ {heading : Heading} {behind : List Char}, behind.length < text.length →
      ReadsAs text.length
        (do return (Statement.heading heading, ← skipLineEnd behind))
        (do return (Statement.heading heading, ← skipLineEnd behind)) := by
    intro heading behind hbehind
    refine .behind fun left hleft => .some ?_
    have hleft := length_le_of_skipLineEnd hleft
    omega
  unfold readHeading
  dsimp only
  generalize hbody : (if text.head? == some '[' then text.tail else text) = body
  have hbodyLength : body.length ≤ text.length := by
    rw [← hbody]
    split <;> simp
  have hspaces := length_skipSpaces_le body
  refine (isSettled_readKey steps (skipSpaces body) steps' (by omega)).bind fun key rest hrest => ?_
  dsimp only
  split
  · exact hline (by simp only [List.length_cons] at hrest; omega)
  · exact hline (by simp only [List.length_cons] at hrest; omega)
  · exact .none

/-- Statements that are read at all are read with two steps for each character of the text, and a
count that is greater than its length. -/
theorem readStatements_of_le {read statements : List Statement} {count count' : Nat}
    (h : readStatements steps read count text = some statements)
    (hsteps : 2 * text.length ≤ steps') (hcount : text.length < count') :
    readStatements steps' read count' text = some statements := by
  induction count generalizing read text count' with
  | zero => cases h
  | succ count ih =>
    obtain ⟨count', rfl⟩ := Nat.exists_eq_add_one_of_ne_zero (Nat.ne_zero_of_lt hcount)
    -- one more statement leaves less of the text, to be read with one less to go
    have hrest : ∀ {reader : Nat → List Char → Option (Statement × List Char)} {line : List Char},
        IsSettled reader 0 steps → line.length ≤ text.length →
          (reader steps line >>= fun found =>
            readStatements steps (found.1 :: read) count found.2) = some statements →
          (reader steps' line >>= fun found =>
            readStatements steps' (found.1 :: read) count' found.2) = some statements := by
      intro reader line hsettled hline hread
      obtain ⟨found, hstatement, hstatements⟩ := Option.bind_eq_some_iff.1 hread
      obtain ⟨hlt, hstatement'⟩ := hsettled line steps' (by omega) found.1 found.2 hstatement
      exact Option.bind_eq_some_iff.2
        ⟨found, hstatement', ih hstatements (by omega) (by omega)⟩
    unfold readStatements at h ⊢
    cases hvoid : skipVoid false text with
    | none =>
      rw [hvoid] at h
      cases h
    | some left =>
      have hleft := length_le_of_skipVoid hvoid
      simp only [hvoid, Option.bind_eq_bind, Option.bind_some] at h ⊢
      split at h
      · exact h
      · rw [List.length_cons] at hleft
        exact hrest (isSettled_readHeading steps) (by omega) h
      · exact hrest (isSettled_readEntry steps) hleft h

/-! ## Documents -/

/-- Where there is no carriage return, nothing is left out. -/
theorem foldLineEnds_eq_append {folded text : List Char} (h : '\r' ∉ text) :
    foldLineEnds folded text = folded.reverse ++ text := by
  induction text generalizing folded with
  | nil => simp [foldLineEnds]
  | cons c rest ih =>
    rw [List.mem_cons, not_or] at h
    rw [foldLineEnds, ih h.2]
    · simp
    · rintro _ rfl
      exact absurd rfl h.1

theorem characters_eq {text : String} (hmark : text.toList.head? ≠ some '\ufeff')
    (hreturn : '\r' ∉ text.toList) : characters text = text.toList := by
  simp only [characters, beq_eq_false_iff_ne.2 hmark, Bool.false_eq_true, if_false,
    foldLineEnds_eq_append hreturn, List.reverse_nil, List.nil_append]

namespace Document

/-- **A document is never refused for want of steps.** A text spells a document if its statements
can be read with any number of steps. -/
theorem ofText?_eq_some_iff {text : String} {document : Document} :
    ofText? text = some document ↔ ∃ steps count statements,
      readStatements steps [] count (characters text) = some statements ∧
        ofStatements statements = document := by
  simp only [ofText?, Option.bind_eq_bind, Option.pure_def, Option.bind_eq_some_iff,
    Option.some.injEq]
  constructor
  · rintro ⟨statements, hread, hdocument⟩
    exact ⟨_, _, statements, hread, hdocument⟩
  · rintro ⟨steps, count, statements, hread, hdocument⟩
    exact ⟨statements, readStatements_of_le hread (Nat.le_refl _) (Nat.lt_succ_self _), hdocument⟩

theorem ofText?_eq {text : String} (hmark : text.toList.head? ≠ some '\ufeff')
    (hreturn : '\r' ∉ text.toList) :
    ofText? text = (readStatements (2 * text.toList.length) [] (text.toList.length + 1)
      text.toList).map ofStatements := by
  simp only [ofText?, characters_eq hmark hreturn]
  cases readStatements _ _ _ _ <;> rfl

theorem ofOctets?_toUTF8 (text : String) : ofOctets? text.toUTF8.data = ofText? text := by
  have htext : String.fromUTF8? text.toUTF8 = some text := dif_pos text.isValidUTF8
  change String.fromUTF8? text.toUTF8 >>= ofText? = _
  rw [htext]
  rfl

end Document

end DnsMatch.Toml
