import DnsMatch.Proofs.Config.Fields

/-! # What a document says of a configuration

The outline of a document is the table at its top, with a table for each of its
pairs. A document that describes a configuration has no tables but those, so it
is written plainly; and a document that is read as a configuration is written
plainly too. Therefore reading it gives just the configuration that its outline
describes (`ofDocument?_eq_some_iff`). -/

namespace DnsMatch.Config

open Toml (Document Entry Table Value)

variable {table fields : Table} {key : String} {entries : List Entry} {pair : Pair}

/-- What stands at the top of a document, and in each table of its pairs if it has any. -/
structure Outline where
  top : Table
  pairs? : Option (List Table)

namespace Outline

/-- The outline of a document that gives an array of tables for the pairs, if it gives anything. -/
def ofDocument? (document : Document) : Option Outline := do
  let top ← document.table?
  match top.lookup "pairs" with
  | none => some ⟨top, none⟩
  | some value => return ⟨top, some (← value.tables?)⟩

structure HasPlainChoices (outline : Outline) : Prop where
  top : Config.HasPlainChoices outline.top
  pairs : ∀ tables, outline.pairs? = some tables → ∀ table ∈ tables, Config.HasPlainChoices table

/-- Whether a configuration is the one that an outline gives, with the default mode and the default
format where it gives none, and the outline gives nothing else. -/
structure Describes (outline : Outline) (config : Config) : Prop where
  keys : ∀ key ∈ outline.top.keys, key ∈ ["mode", "format", "pairs"]
  mode : ∃ mode? : Option Mode, outline.top.lookup "mode" = mode?.map (.string ·.name) ∧
    config.mode = mode?.getD Mode.default
  format : ∃ format? : Option Format, outline.top.lookup "format" = format?.map (.string ·.name) ∧
    config.format = format?.getD Format.default
  pairs : ∃ tables, outline.pairs? = some tables ∧
    List.Forall₂ Config.Describes tables config.pairs

variable {document : Document} {outline : Outline}

theorem ofDocument?_eq_some_iff : ofDocument? document = some outline ↔
    document.table? = some outline.top ∧
      (outline.top.lookup "pairs" = none ∧ outline.pairs? = none ∨
        ∃ items : List (List Entry), ∃ tables,
          outline.top.lookup "pairs" = some (.array (items.map .table)) ∧
            items.mapM Table.ofEntries? = some tables ∧ outline.pairs? = some tables) := by
  obtain ⟨top, pairs?⟩ := outline
  rw [ofDocument?, Option.bind_eq_bind, Option.bind_eq_some_iff]
  constructor
  · rintro ⟨top', htop, h⟩
    split at h
    · next hnone =>
      cases h
      exact ⟨htop, .inl ⟨hnone, rfl⟩⟩
    · next value hvalue =>
      obtain ⟨tables, htables, h⟩ := Option.bind_eq_some_iff.1 h
      cases h
      obtain ⟨items, rfl, hitems⟩ := Value.tables?_eq_some_iff.1 htables
      exact ⟨htop, .inr ⟨items, tables, hvalue, hitems, rfl⟩⟩
  · rintro ⟨htop, ⟨hnone, rfl⟩ | ⟨items, tables, hvalue, hitems, rfl⟩⟩
    · exact ⟨top, htop, by rw [hnone]⟩
    · have htables := Value.tables?_eq_some_iff.2 ⟨items, rfl, hitems⟩
      exact ⟨top, htop, by rw [hvalue]; simp [htables]⟩

end Outline

/-! ## Documents that are written plainly -/

variable {document : Document} {items : List (List Entry)} {outline : Outline} {config : Config}
  {pairs : List Pair}

theorem pairs?_of_plain (h : document.Plain "pairs" fields items) (hnodup : fields.keys.Nodup) :
    pairs? (fields.lookup "pairs") document.sections = items.mapM pairOfEntries? := by
  cases h with
  | inline there =>
    rw [(Table.lookup_eq_some_iff hnodup).2 there]
    exact List.mapM_map
  | sections nonempty elsewhere =>
    rw [Table.lookup_eq_none_iff.2 elsewhere]
    cases items with
    | nil => exact absurd rfl nonempty
    | cons first items =>
      change ((first :: items).map (Toml.Section.ofElement "pairs")).mapM pairOfSection? = _
      exact List.mapM_map

/-- The sections of pairs are the elements of one array. -/
theorem eq_map_ofElement {sections : List Toml.Section}
    (h : sections.mapM pairOfSection? = some pairs) :
    sections = (sections.map (·.entries)).map (Toml.Section.ofElement "pairs") := by
  rw [mapM_eq_some_iff] at h
  induction h with
  | nil => rfl
  | @cons block pair sections pairs hblock _ ih =>
    obtain ⟨hheading, -⟩ := Option.ite_none_right_eq_some.1 hblock
    rw [List.map_cons, List.map_cons, ← ih, Toml.Section.ofElement, ← hheading]

theorem exists_plain_of_pairs? (houtline : Outline.ofDocument? document = some outline)
    (hentries : document.entries = fields.plainEntries)
    (hpairs : pairs? (fields.lookup "pairs") document.sections = some pairs) :
    ∃ items, document.Plain "pairs" fields items := by
  obtain ⟨entries, sections⟩ := document
  obtain rfl : entries = fields.plainEntries := hentries
  unfold pairs? at hpairs
  split at hpairs
  · next values hvalues hsections =>
    obtain rfl : sections = [] := hsections
    obtain ⟨htop, houtline⟩ := Outline.ofDocument?_eq_some_iff.1 houtline
    have htop : outline.top = fields := by
      obtain ⟨own, headed, hown, hheaded, htable, -⟩ := Document.table?_eq_some_iff.1 htop
      cases fields.mapM_plainEntries.symm.trans hown
      cases hheaded
      simpa using htable
    rw [htop, hvalues] at houtline
    obtain ⟨hnone, -⟩ | ⟨items, tables, hitems, -⟩ := houtline
    · cases hnone
    · cases hitems
      exact ⟨items, .inline (Table.mem_of_lookup hvalues)⟩
  · next block blocks hlookup hsections =>
    obtain rfl : sections = block :: blocks := hsections
    rw [eq_map_ofElement hpairs]
    exact ⟨_, .sections (by simp) (Table.lookup_eq_none_iff.1 hlookup)⟩
  · cases hpairs

/-- What a plainly written document says is what is written there. -/
theorem outline_of_plain (h : document.Plain "pairs" fields items) (hnodup : fields.keys.Nodup)
    (houtline : Outline.ofDocument? document = some outline) :
    (∀ key, key ∈ outline.top.keys ↔ key ∈ fields.keys ∨ key = "pairs") ∧
      (∀ key ≠ "pairs", outline.top.lookup key = fields.lookup key) ∧
      ∃ tables, outline.pairs? = some tables ∧ items.mapM Table.ofEntries? = some tables := by
  obtain ⟨htop, houtline⟩ := Outline.ofDocument?_eq_some_iff.1 houtline
  obtain ⟨top, htop', hnodupTop, hmem⟩ := Document.table?_of_plain h hnodup
  obtain rfl : top = outline.top := Option.some.inj (htop'.symm.trans htop)
  refine ⟨fun key => ?_, fun key hne => Option.ext fun value => ?_, ?_⟩
  · simp only [Table.mem_keys_iff, hmem, exists_or, Prod.mk.injEq, exists_and_left,
      exists_eq, and_true]
  · rw [Table.lookup_eq_some_iff hnodupTop, Table.lookup_eq_some_iff hnodup, hmem]
    simp [hne]
  · have hpairs := (Table.lookup_eq_some_iff hnodupTop).2 ((hmem _).2 (.inr rfl))
    rw [hpairs] at houtline
    obtain ⟨hnone, -⟩ | ⟨items', tables, hitems, htables, houtline⟩ := houtline
    · cases hnone
    · have hitems := List.map_injective_iff.2 (fun _ _ h => Value.table.inj h)
        (Value.array.inj (Option.some.inj hitems))
      exact ⟨tables, houtline, hitems ▸ htables⟩

theorem mapM_pairOfEntries?_eq_some_iff {tables : List Table}
    (htables : items.mapM Table.ofEntries? = some tables)
    (hchoices : ∀ table ∈ tables, HasPlainChoices table) :
    items.mapM pairOfEntries? = some pairs ↔ List.Forall₂ Describes tables pairs := by
  rw [mapM_eq_some_iff] at htables ⊢
  induction htables generalizing pairs with
  | nil => cases pairs <;> simp
  | @cons entries table items tables hentries _ ih =>
    obtain ⟨hfirst, hrest⟩ := List.forall_mem_cons.1 hchoices
    cases pairs with
    | nil => simp
    | cons pair pairs =>
      rw [List.forall₂_cons, List.forall₂_cons, pairOfEntries?_eq_some_iff hentries hfirst,
        ih hrest]

/-! ## The configuration of a document -/

theorem Describes.isTable_eq_false_of_mem (h : Describes table pair)
    (hentries : Table.ofEntries? entries = some table) :
    ∀ entry ∈ entries, entry.2.isTable = false := by
  obtain ⟨hmap, hconsistent⟩ := Table.ofEntries?_eq_some_iff.1 hentries
  have hplain := h.isTable_eq_false hconsistent
  rw [Table.eq_plainEntries hmap hplain]
  exact List.forall_mem_map.2 hplain

/-- What stands beside the pairs is a string. -/
theorem Outline.Describes.exists_text? (h : outline.Describes config)
    (hkey : key ∈ outline.top.keys) (hne : key ≠ "pairs") :
    ∃ text? : Option String, outline.top.lookup key = text?.map .string := by
  have hkey := h.keys key hkey
  simp only [List.mem_cons, List.not_mem_nil, or_false, hne] at hkey
  rcases hkey with rfl | rfl
  · obtain ⟨mode?, hmode, -⟩ := h.mode
    exact ⟨mode?.map Mode.name, by rw [hmode, Option.map_map]; rfl⟩
  · obtain ⟨format?, hformat, -⟩ := h.format
    exact ⟨format?.map Format.name, by rw [hformat, Option.map_map]; rfl⟩

/-- A document that describes a configuration is written plainly. -/
theorem Outline.Describes.exists_plain (h : outline.Describes config)
    (houtline : Outline.ofDocument? document = some outline)
    (hchoices : outline.HasPlainChoices) :
    ∃ fields items, document.Plain "pairs" fields items ∧ fields.keys.Nodup := by
  obtain ⟨tables, htables, hpairs⟩ := h.pairs
  obtain ⟨htop, ⟨-, hnone⟩ | ⟨items, tables', hitems, hmap, htables'⟩⟩ :=
    Outline.ofDocument?_eq_some_iff.1 houtline
  · cases hnone.symm.trans htables
  · obtain rfl : tables' = tables := Option.some.inj (htables'.symm.trans htables)
    obtain ⟨_, _, -, -, -, hconsistent⟩ := Document.table?_eq_some_iff.1 htop
    have hothers : ∀ field ∈ outline.top, field.1 ≠ "pairs" → ∃ text, field.2 = .string text := by
      intro field hmem hne
      obtain ⟨text?, htext⟩ := h.exists_text? (Table.mem_keys_of_mem hmem) hne
      exact hconsistent.exists_text htext hmem
    have hmapPairs := (mapM_pairOfEntries?_eq_some_iff hmap (hchoices.pairs _ htables)).2 hpairs
    have hplain : ∀ entries ∈ items, ∀ entry ∈ entries, entry.2.isTable = false := by
      intro entries hmem
      obtain ⟨table, htable, hentries⟩ := exists_of_mapM_eq_some hmap hmem
      obtain ⟨pair, -, hpair⟩ := exists_of_mapM_eq_some hmapPairs hmem
      have hdescribes := (pairOfEntries?_eq_some_iff hentries
        (hchoices.pairs _ htables table htable)).1 hpair
      exact hdescribes.isTable_eq_false_of_mem hentries
    obtain ⟨fields, hfields⟩ := Document.exists_plain htop hitems hothers hplain
    exact ⟨fields, items, hfields⟩

/-- Reading a document gives just the configuration that its outline describes. -/
theorem ofDocument?_eq_some_iff (houtline : Outline.ofDocument? document = some outline)
    (hchoices : outline.HasPlainChoices) :
    ofDocument? document = some config ↔ outline.Describes config := by
  simp only [ofDocument?, Option.bind_eq_bind, Option.bind_eq_some_iff, Option.pure_def,
    Option.some.injEq]
  constructor
  · rintro ⟨fields, hfields, mode?, hmode, format?, hformat, pairs, hpairs, rfl⟩
    obtain ⟨hentries, hkeys, hnodup⟩ := fields?_eq_some_iff.1 hfields
    obtain ⟨items, hplain⟩ := exists_plain_of_pairs? houtline hentries hpairs
    obtain ⟨htopKeys, hlookup, tables, htables, hitems⟩ := outline_of_plain hplain hnodup houtline
    rw [← hlookup _ (by decide)] at hmode hformat
    rw [pairs?_of_plain hplain hnodup] at hpairs
    refine ⟨fun key hkey => ?_, ⟨mode?, hchoices.top.optional_mode?_iff.1 hmode, rfl⟩,
      ⟨format?, hchoices.top.optional_format?_iff.1 hformat, rfl⟩, ⟨tables, htables,
        (mapM_pairOfEntries?_eq_some_iff hitems (hchoices.pairs tables htables)).1 hpairs⟩⟩
    rcases (htopKeys key).1 hkey with hkey | rfl
    · exact hkeys key hkey
    · simp
  · intro h
    obtain ⟨fields, items, hplain, hnodup⟩ := h.exists_plain houtline hchoices
    obtain ⟨htopKeys, hlookup, tables, htables, hitems⟩ := outline_of_plain hplain hnodup houtline
    obtain ⟨mode?, hmode, hconfigMode⟩ := h.mode
    obtain ⟨format?, hformat, hconfigFormat⟩ := h.format
    obtain ⟨tables', htables', hpairs⟩ := h.pairs
    obtain rfl : tables' = tables := Option.some.inj (htables'.symm.trans htables)
    refine ⟨fields, fields?_eq_some_iff.2 ⟨hplain.entries_eq, fun key hkey =>
      h.keys key ((htopKeys key).2 (.inl hkey)), hnodup⟩, mode?, ?_, format?, ?_,
      config.pairs, ?_, ?_⟩
    · rw [← hlookup _ (by decide)]
      exact hchoices.top.optional_mode?_iff.2 hmode
    · rw [← hlookup _ (by decide)]
      exact hchoices.top.optional_format?_iff.2 hformat
    · rw [pairs?_of_plain hplain hnodup]
      exact (mapM_pairOfEntries?_eq_some_iff hitems (hchoices.pairs _ htables)).2 hpairs
    · rw [← hconfigMode, ← hconfigFormat]

end DnsMatch.Config
