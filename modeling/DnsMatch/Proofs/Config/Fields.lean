import DnsMatch.Config.Load
import DnsMatch.Proofs.Toml.Table

/-! # What a table says of a pair

A table describes a pair if its values are strings, each under a key that a
pair has, and name the pair's files, mode and format (`Describes`). Reading the
entries of a table gives just the pair that it describes, unless the table
gives a mode or a format by a table. -/

namespace DnsMatch

open Toml (Entry Table Value)

variable {table fields : Table} {key : String} {entries : List Entry} {pair : Pair}

/-! ## Names and values -/

theorem Mode.ofName?_eq_some_iff {name : String} {mode : Mode} :
    Mode.ofName? name = some mode ↔ name = mode.name := by
  constructor
  · intro h
    simpa using List.find?_some h
  · rintro rfl
    cases mode <;> rfl

theorem Format.ofText?_eq_some_iff {text : String} {format : Format} :
    Format.ofText? text = some format ↔ text = format.name := by
  constructor
  · intro h
    simpa using List.find?_some h
  · rintro rfl
    cases format <;> rfl

namespace Config

theorem text?_eq_some_iff {value : Value} {text : String} :
    text? value = some text ↔ value = .string text := by
  cases value <;> simp [text?]

/-- A value that is no table means what it is the name of. -/
theorem choice?_eq_some_iff {α : Type} {ofName? : String → Option α} {nameOf : α → String}
    (hname : ∀ name choice, ofName? name = some choice ↔ name = nameOf choice) {value : Value}
    (hplain : ∀ entries, value ≠ .table entries) {choice : α} :
    choice? ofName? value = some choice ↔ value = .string (nameOf choice) := by
  cases value with
  | string name => simp [choice?, hname]
  | scalar spelling => simp [choice?]
  | array items => simp [choice?]
  | table entries => exact absurd rfl (hplain entries)

theorem mode?_eq_some_iff {value : Value} (hplain : ∀ entries, value ≠ .table entries)
    {mode : Mode} : mode? value = some mode ↔ value = .string mode.name :=
  choice?_eq_some_iff (fun _ _ => Mode.ofName?_eq_some_iff) hplain

theorem format?_eq_some_iff {value : Value} (hplain : ∀ entries, value ≠ .table entries)
    {format : Format} : format? value = some format ↔ value = .string format.name :=
  choice?_eq_some_iff (fun _ _ => Format.ofText?_eq_some_iff) hplain

/-- What is found under a key that may be absent is what is written there. -/
theorem optional?_eq_some_iff {α : Type} {read? : Value → Option α} {write : α → Value}
    {value? : Option Value} {found? : Option α}
    (h : ∀ value, value? = some value → ∀ found, read? value = some found ↔ value = write found) :
    optional? read? value? = some found? ↔ value? = found?.map write := by
  cases value? with
  | none => cases found? <;> simp [optional?]
  | some value =>
    cases found? with
    | none => cases read? value <;> simp [optional?]
    | some found => simp [optional?, h value rfl]

/-- Only a plain entry is read as a field. -/
theorem mapM_field_eq_some_iff :
    entries.mapM (fun | ([key], value) => some (key, value) | _ => none) = some fields ↔
      entries = fields.plainEntries := by
  rw [mapM_eq_some_iff]
  constructor
  · intro h
    induction h with
    | nil => rfl
    | @cons entry field entries fields hfield _ ih =>
      rcases entry with ⟨_ | ⟨key, _ | ⟨second, rest⟩⟩, value⟩ <;> cases hfield
      rw [ih]
      rfl
  · rintro rfl
    rw [Table.plainEntries, List.forall₂_map_left_iff]
    exact List.forall₂_same.2 fun _ _ => rfl

theorem fields?_eq_some_iff {allowed : List String} :
    fields? allowed entries = some fields ↔
      entries = fields.plainEntries ∧ (∀ key ∈ fields.keys, key ∈ allowed) ∧
        fields.keys.Nodup := by
  rw [← mapM_field_eq_some_iff, fields?, Option.bind_eq_bind, Option.bind_eq_some_iff]
  constructor
  · rintro ⟨fields', hfields, h⟩
    obtain ⟨hkeys, heq⟩ := Option.ite_none_right_eq_some.1 h
    cases heq
    exact ⟨hfields, by simpa [Table.keys] using hkeys⟩
  · rintro ⟨hfields, hkeys⟩
    refine ⟨fields, hfields, if_pos ?_⟩
    simpa [Table.keys] using hkeys

/-! ## What a table says of a pair -/

structure HasPlainChoices (table : Table) : Prop where
  mode : ∀ entries, table.lookup "mode" ≠ some (.table entries)
  format : ∀ entries, table.lookup "format" ≠ some (.table entries)

theorem HasPlainChoices.optional_mode?_iff (h : HasPlainChoices table) {mode? : Option Mode} :
    optional? Config.mode? (table.lookup "mode") = some mode? ↔
      table.lookup "mode" = mode?.map (.string ·.name) :=
  optional?_eq_some_iff fun _ hvalue _ =>
    mode?_eq_some_iff fun entries htable => h.mode entries (htable ▸ hvalue)

theorem HasPlainChoices.optional_format?_iff (h : HasPlainChoices table)
    {format? : Option Format} :
    optional? Config.format? (table.lookup "format") = some format? ↔
      table.lookup "format" = format?.map (.string ·.name) :=
  optional?_eq_some_iff fun _ hvalue _ =>
    format?_eq_some_iff fun entries htable => h.format entries (htable ▸ hvalue)

theorem optional_text?_iff {value? : Option Value} {text? : Option String} :
    optional? Config.text? value? = some text? ↔ value? = text?.map .string :=
  optional?_eq_some_iff fun _ _ _ => text?_eq_some_iff

theorem HasPlainChoices.of_not_mem (hmode : "mode" ∉ table.keys) (hformat : "format" ∉ table.keys) :
    HasPlainChoices table where
  mode _ h := hmode (Table.mem_keys_of_mem (Table.mem_of_lookup h))
  format _ h := hformat (Table.mem_keys_of_mem (Table.mem_of_lookup h))

/-- Whether the values of a pair are those that a table gives, and it gives no others. -/
structure Describes (table : Table) (pair : Pair) : Prop where
  keys : ∀ key ∈ table.keys, key ∈ pairKeys
  name : table.lookup "name" = pair.name?.map .string
  expected : table.lookup "expected" = some (.string pair.expected.text)
  actual : table.lookup "actual" = some (.string pair.actual.text)
  mode : table.lookup "mode" = pair.mode?.map (.string ·.name)
  format : table.lookup "format" = pair.format?.map (.string ·.name)

theorem pairOfFields?_eq_some_iff (h : HasPlainChoices fields)
    (hkeys : ∀ key ∈ fields.keys, key ∈ pairKeys) :
    pairOfFields? fields = some pair ↔ Describes fields pair := by
  simp only [pairOfFields?, Option.bind_eq_bind, Option.bind_eq_some_iff, optional_text?_iff,
    h.optional_mode?_iff, h.optional_format?_iff, text?_eq_some_iff, Option.pure_def,
    Option.some.injEq]
  constructor
  · rintro ⟨name?, hname, _, hexpected, expected, rfl, _, hactual, actual, rfl, mode?, hmode,
      format?, hformat, rfl⟩
    exact ⟨hkeys, hname, hexpected, hactual, hmode, hformat⟩
  · intro h
    exact ⟨_, h.name, _, h.expected, _, rfl, _, h.actual, _, rfl, _, h.mode, _, h.format, rfl⟩

/-- The values of a pair are strings. -/
theorem Describes.exists_text? (h : Describes table pair) (hkey : key ∈ pairKeys) :
    ∃ text? : Option String, table.lookup key = text?.map .string := by
  simp only [pairKeys, List.mem_cons, List.not_mem_nil, or_false] at hkey
  rcases hkey with rfl | rfl | rfl | rfl | rfl
  · exact ⟨_, h.name⟩
  · exact ⟨some _, h.expected⟩
  · exact ⟨some _, h.actual⟩
  · exact ⟨pair.mode?.map Mode.name, by rw [h.mode, Option.map_map]; rfl⟩
  · exact ⟨pair.format?.map Format.name, by rw [h.format, Option.map_map]; rfl⟩

theorem Describes.isTable_eq_false (h : Describes table pair) (hconsistent : table.IsConsistent) :
    ∀ field ∈ table, field.2.isTable = false := by
  rintro ⟨key, value⟩ hmem
  obtain ⟨text?, htext⟩ := h.exists_text? (h.keys key (Table.mem_keys_of_mem hmem))
  obtain ⟨text, rfl⟩ := hconsistent.exists_text htext hmem
  rfl

theorem pairOfEntries?_eq_some_iff (hentries : Table.ofEntries? entries = some table)
    (hchoices : HasPlainChoices table) :
    pairOfEntries? entries = some pair ↔ Describes table pair := by
  obtain ⟨hmap, hconsistent⟩ := Table.ofEntries?_eq_some_iff.1 hentries
  rw [pairOfEntries?, Option.bind_eq_bind, Option.bind_eq_some_iff]
  constructor
  · rintro ⟨fields, hfields, hpair⟩
    obtain ⟨rfl, hkeys, hnodup⟩ := fields?_eq_some_iff.1 hfields
    obtain rfl : fields = table := by
      simpa [Table.ofEntries?_plainEntries hnodup] using hentries
    exact (pairOfFields?_eq_some_iff hchoices hkeys).1 hpair
  · intro h
    have hplain := h.isTable_eq_false hconsistent
    exact ⟨table, fields?_eq_some_iff.2
      ⟨Table.eq_plainEntries hmap hplain, h.keys, hconsistent.nodup hplain⟩,
      (pairOfFields?_eq_some_iff hchoices h.keys).2 h⟩

end Config

end DnsMatch
