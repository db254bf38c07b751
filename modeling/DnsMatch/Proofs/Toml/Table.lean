import DnsMatch.Proofs.Chain
import DnsMatch.Toml.Table

/-! # Tables without tables in them

If nothing in a table is a table, the table was written plainly: each entry has
one key of one part (`Table.plainEntries`), and no section stands below another
one. So what a document says tells how it is written, as far as its values are
strings and its arrays hold such tables. -/

namespace DnsMatch

theorem eraseDups_eq_singleton {α : Type} [BEq α] [LawfulBEq α] {values : List α} {value : α}
    (h : ∀ other ∈ values, other = value) (hne : values ≠ []) : values.eraseDups = [value] := by
  cases values with
  | nil => exact absurd rfl hne
  | cons first values =>
    obtain rfl := h first List.mem_cons_self
    have hnone : values.filter (fun other => !other == first) = [] := by
      refine List.filter_eq_nil_iff.2 fun other hmem => ?_
      simp [h other (List.mem_cons_of_mem _ hmem)]
    rw [List.eraseDups_cons, hnone]
    rfl

namespace Toml

namespace Table

variable {table : Table} {key : String} {value : Value} {entries : List Entry}

theorem mem_keys_iff : key ∈ table.keys ↔ ∃ value, (key, value) ∈ table := by
  simp [keys]

theorem mem_keys_of_mem (h : (key, value) ∈ table) : key ∈ table.keys :=
  mem_keys_iff.2 ⟨value, h⟩

/-! ## Looking up keys -/

theorem mem_of_lookup (h : table.lookup key = some value) : (key, value) ∈ table := by
  obtain ⟨before, behind, rfl, _⟩ := List.lookup_eq_some_iff.1 h
  simp

theorem lookup_eq_none_iff : table.lookup key = none ↔ key ∉ table.keys := by
  rw [List.lookup_eq_none_iff, mem_keys_iff]
  constructor
  · rintro h ⟨value, hmem⟩
    simpa using h _ hmem
  · intro h field hmem
    simp only [bne_iff_ne, ne_eq]
    rintro rfl
    exact h ⟨_, hmem⟩

/-- A key that is there once has the value that is found for it. -/
theorem lookup_eq_some_iff (hnodup : table.keys.Nodup) :
    table.lookup key = some value ↔ (key, value) ∈ table := by
  refine ⟨mem_of_lookup, fun hmem => ?_⟩
  induction table with
  | nil => cases hmem
  | cons field table ih =>
    obtain ⟨hnew, hnodup⟩ := List.nodup_cons.1 hnodup
    rcases List.mem_cons.1 hmem with rfl | hmem
    · rw [List.lookup_cons_self]
    · have hne : key ≠ field.1 := by
        rintro rfl
        exact hnew (mem_keys_of_mem hmem)
      rw [List.lookup_cons, beq_eq_false_iff_ne.2 hne]
      exact ih hnodup hmem

/-! ## Consistent tables -/

theorem IsConsistent.of_nodup (h : table.keys.Nodup) : table.IsConsistent := by
  refine (List.pairwise_map.1 h).imp ?_
  intro one other hne heq
  exact absurd heq hne

/-- Values that are no tables are there once. -/
theorem IsConsistent.nodup (h : table.IsConsistent)
    (hplain : ∀ field ∈ table, field.2.isTable = false) : table.keys.Nodup := by
  refine List.pairwise_map.2 (List.Pairwise.imp_of_mem ?_ h)
  intro one other hone _ hsame heq
  have := (hsame heq).1
  rw [hplain one hone] at this
  cases this

/-- A value that is no table is the only one of its key. -/
theorem IsConsistent.eq_of_lookup {value' : Value} (h : table.IsConsistent)
    (hlookup : table.lookup key = some value) (hplain : value.isTable = false)
    (hmem : (key, value') ∈ table) : value' = value := by
  obtain ⟨before, behind, rfl, hbefore⟩ := List.lookup_eq_some_iff.1 hlookup
  rcases List.mem_append.1 hmem with hmem | hmem
  · simpa using hbefore _ hmem
  · rcases List.mem_cons.1 hmem with hsame | hmem
    · exact (Prod.mk.inj hsame).2
    · have hpair := (List.pairwise_cons.1 (List.pairwise_append.1 h).2.1).1 _ hmem rfl
      rw [hplain] at hpair
      cases hpair.1

/-- A key that has a string, if it has anything, has nothing else. -/
theorem IsConsistent.exists_text {text? : Option String} (h : table.IsConsistent)
    (hlookup : table.lookup key = text?.map .string) (hmem : (key, value) ∈ table) :
    ∃ text, value = .string text := by
  cases text? with
  | none => exact absurd (mem_keys_of_mem hmem) (lookup_eq_none_iff.1 hlookup)
  | some text => exact ⟨text, h.eq_of_lookup hlookup rfl hmem⟩

/-! ## Entries -/

def plainEntries (table : Table) : List Entry :=
  table.map fun (key, value) => ([key], value)

theorem mapM_plainEntries (table : Table) : table.plainEntries.mapM ofEntry? = some table := by
  rw [mapM_eq_some_iff, plainEntries, List.forall₂_map_left_iff]
  exact List.forall₂_same.2 fun _ _ => rfl

theorem ofEntries?_plainEntries (h : table.keys.Nodup) :
    ofEntries? table.plainEntries = some table := by
  rw [ofEntries?, mapM_plainEntries]
  exact if_pos (.of_nodup h)

/-- Entries that give no key a table are plain. -/
theorem eq_plainEntries (h : entries.mapM ofEntry? = some table)
    (hplain : ∀ field ∈ table, field.2.isTable = false) : entries = table.plainEntries := by
  rw [mapM_eq_some_iff] at h
  induction h with
  | nil => rfl
  | @cons entry field entries table hfield _ ih =>
    have hrest := ih fun field hmem => hplain field (List.mem_cons_of_mem _ hmem)
    have hfirst : entry = ([field.1], field.2) := by
      have hfieldPlain := hplain field List.mem_cons_self
      rcases entry with ⟨_ | ⟨key, _ | ⟨second, rest⟩⟩, value⟩
      · cases hfield
      · cases hfield
        rfl
      · cases hfield
        cases hfieldPlain
    rw [hfirst, hrest]
    rfl

/-- A key that is there once has one value. -/
theorem eq_of_mem {value' : Value} (hnodup : table.keys.Nodup) (h : (key, value) ∈ table)
    (h' : (key, value') ∈ table) : value = value' :=
  Option.some.inj (((lookup_eq_some_iff hnodup).2 h).symm.trans ((lookup_eq_some_iff hnodup).2 h'))

theorem ofEntries?_eq_some_iff :
    ofEntries? entries = some table ↔ entries.mapM ofEntry? = some table ∧ table.IsConsistent := by
  unfold ofEntries?
  cases entries.mapM ofEntry? with
  | none => simp
  | some table' =>
    simp only [Option.bind_eq_bind, Option.bind_some]
    by_cases hconsistent : IsConsistent table'
    · rw [if_pos hconsistent, Option.some.injEq]
      exact ⟨fun heq => ⟨heq, heq ▸ hconsistent⟩, And.left⟩
    · rw [if_neg hconsistent, Option.some.injEq]
      constructor
      · intro h
        cases h
      · rintro ⟨rfl, h⟩
        exact absurd h hconsistent

end Table

theorem Value.tables?_eq_some_iff {value : Value} {tables : List Table} :
    value.tables? = some tables ↔ ∃ items : List (List Entry),
      value = .array (items.map .table) ∧ items.mapM Table.ofEntries? = some tables := by
  cases value with
  | array values =>
    simp only [tables?, mapM_eq_some_iff, array.injEq]
    constructor
    · intro h
      induction h with
      | nil => exact ⟨[], rfl, .nil⟩
      | @cons value table values tables hvalue _ ih =>
        obtain ⟨items, rfl, hitems⟩ := ih
        cases value with
        | table entries => exact ⟨entries :: items, rfl, .cons hvalue hitems⟩
        | _ => cases hvalue
    · rintro ⟨items, rfl, hitems⟩
      exact List.forall₂_map_left_iff.2 hitems
  | _ => simp [tables?]

/-! ## Sections -/

namespace Section

variable {blocks : List Section} {elements : List (List Entry)}

theorem split_cons_of_opensElement {block : Section} (h : block.opensElement = true) :
    split (block :: blocks) =
      ([], (block.entries ++ (split blocks).1) :: (split blocks).2) := by
  simp [split, h]

theorem split_cons_of_not_opensElement {block : Section} (h : block.opensElement = false) :
    split (block :: blocks) = (block.below :: (split blocks).1, (split blocks).2) := by
  simp [split, h]

/-- What is said before the first element is said by sections below something. -/
theorem isTable_of_mem_before {entry : Entry} (h : entry ∈ (split blocks).1) :
    entry.2.isTable = true := by
  induction blocks with
  | nil => cases h
  | cons block blocks ih =>
    cases hopens : block.opensElement with
    | true =>
      rw [split_cons_of_opensElement hopens] at h
      cases h
    | false =>
      rw [split_cons_of_not_opensElement hopens] at h
      rcases List.mem_cons.1 h with rfl | h
      · rfl
      · exact ih h

theorem split_of_opensElement (h : ∀ block ∈ blocks, block.opensElement = true) :
    split blocks = ([], blocks.map (·.entries)) := by
  induction blocks with
  | nil => rfl
  | cons block blocks ih =>
    rw [split_cons_of_opensElement (h block List.mem_cons_self),
      ih fun block hmem => h block (List.mem_cons_of_mem _ hmem)]
    simp

/-- Elements without a table in them are one section each. -/
theorem opensElement_of_plain (hsplit : split blocks = ([], elements))
    (hplain : ∀ entries ∈ elements, ∀ entry ∈ entries, entry.2.isTable = false) :
    ∀ block ∈ blocks, block.opensElement = true := by
  induction blocks generalizing elements with
  | nil => simp
  | cons block blocks ih =>
    cases hopens : block.opensElement with
    | true =>
      rw [split_cons_of_opensElement hopens, Prod.mk.injEq] at hsplit
      obtain ⟨_, rfl⟩ := hsplit
      have hbefore : (split blocks).1 = [] := by
        refine List.eq_nil_iff_forall_not_mem.2 fun entry hmem => ?_
        have := hplain _ List.mem_cons_self entry (List.mem_append_right _ hmem)
        rw [isTable_of_mem_before hmem] at this
        cases this
      have hrest := ih (Prod.ext hbefore rfl) fun entries hmem =>
        hplain entries (List.mem_cons_of_mem _ hmem)
      simpa [hopens] using hrest
    | false =>
      rw [split_cons_of_not_opensElement hopens] at hsplit
      cases hsplit

def ofElement (key : String) (entries : List Entry) : Section :=
  ⟨⟨[key], true⟩, entries⟩

theorem eq_ofElement {block : Section} {key : String} (h : block.opensElement = true)
    (hhead : block.heading.key.head? = some key) : block = ofElement key block.entries := by
  obtain ⟨⟨_ | ⟨first, rest⟩, isElement⟩, entries⟩ := block
  · cases hhead
  · simp_all [opensElement, ofElement]

theorem value_eq_array_iff {items : List Value} :
    value blocks = .array items ↔ ∃ elements, split blocks = ([], elements) ∧
      elements.map .table = items := by
  unfold value
  split
  · next elements hsplit => simp [hsplit]
  · next before elements hne hsplit =>
    simp only [reduceCtorEq, hsplit, Prod.mk.injEq, false_iff]
    rintro ⟨_, ⟨rfl, _⟩, _⟩
    exact hne rfl

theorem value_ofElement (key : String) (items : List (List Entry)) :
    value (items.map (ofElement key)) = .array (items.map .table) := by
  refine value_eq_array_iff.2 ⟨items, ?_, rfl⟩
  rw [split_of_opensElement (by simp [opensElement, ofElement])]
  simp [ofElement, Function.comp_def]

/-- Sections that give a part an array of tables without tables in them open one element each. -/
theorem eq_map_ofElement {key : String} {items : List (List Entry)}
    (hvalue : value blocks = .array (items.map .table))
    (hheads : ∀ block ∈ blocks, block.heading.key.head? = some key)
    (hplain : ∀ entries ∈ items, ∀ entry ∈ entries, entry.2.isTable = false) :
    blocks = items.map (ofElement key) := by
  obtain ⟨elements, hsplit, helements⟩ := value_eq_array_iff.1 hvalue
  obtain rfl : elements = items :=
    List.map_injective_iff.2 (fun _ _ h => Value.table.inj h) helements
  have hopens := opensElement_of_plain hsplit hplain
  rw [split_of_opensElement hopens, Prod.mk.injEq] at hsplit
  obtain ⟨_, rfl⟩ := hsplit
  rw [List.map_map]
  refine ((List.map_congr_left fun block hmem => ?_).trans (List.map_id _)).symm
  exact (eq_ofElement (hopens block hmem) (hheads block hmem)).symm

theorem value_ne_string {text : String} : value blocks ≠ .string text := by
  unfold value
  split <;> simp

end Section

/-! ## Documents -/

namespace Document

variable {document : Document} {table fields : Table} {key : String} {items : List (List Entry)}

theorem table?_eq_some_iff :
    document.table? = some table ↔ ∃ own : Table, ∃ headed,
      document.entries.mapM Table.ofEntry? = some own ∧
      document.sections.mapM (·.heading.key.head?) = some headed ∧
      table = own ++ headed.eraseDups.map (fun key =>
        (key, Section.value (document.sections.filter (·.heading.key.head? = some key)))) ∧
      table.IsConsistent := by
  unfold table?
  cases document.entries.mapM Table.ofEntry? with
  | none => simp
  | some own =>
    cases document.sections.mapM (·.heading.key.head?) with
    | none => simp
    | some headed =>
      simp only [Option.bind_eq_bind, Option.bind_some, Option.some.injEq, exists_and_left,
        exists_eq_left']
      split
      · next h =>
        rw [Option.some.injEq]
        exact ⟨fun heq => ⟨heq.symm, heq ▸ h⟩, fun heq => heq.1.symm⟩
      · next h =>
        constructor
        · intro h
          cases h
        · rintro ⟨rfl, h'⟩
          exact absurd h' h

/-- Whether a document is written plainly: its own entries are those of a table, and the tables of
one array are inline tables among them, or sections of their own. -/
inductive Plain (key : String) (fields : Table) (items : List (List Entry)) : Document → Prop
  | inline (there : (key, .array (items.map .table)) ∈ fields) :
      Plain key fields items ⟨fields.plainEntries, []⟩
  | sections (nonempty : items ≠ []) (elsewhere : key ∉ fields.keys) :
      Plain key fields items ⟨fields.plainEntries, items.map (Section.ofElement key)⟩

theorem Plain.entries_eq (h : document.Plain key fields items) :
    document.entries = fields.plainEntries := by
  cases h <;> rfl

/-- A document whose sections all begin with one part. -/
theorem table?_eq_of_headed (hne : document.sections ≠ [])
    (hheaded : ∀ block ∈ document.sections, block.heading.key.head? = some key)
    (hentries : document.entries.mapM Table.ofEntry? = some fields) :
    document.table? = some table ↔
      table = fields ++ [(key, Section.value document.sections)] ∧ table.IsConsistent := by
  have hfilter : document.sections.filter (·.heading.key.head? = some key) = document.sections :=
    List.filter_eq_self.2 fun block hmem => by simpa using hheaded block hmem
  have hmap : document.sections.mapM (·.heading.key.head?) =
      some (document.sections.map fun _ => key) := by
    rw [mapM_eq_some_iff, List.forall₂_map_right_iff]
    exact List.forall₂_same.2 hheaded
  have hdups : (document.sections.map fun _ => key).eraseDups = [key] :=
    eraseDups_eq_singleton (by simp) (by simpa using hne)
  rw [table?_eq_some_iff, hmap, hentries]
  constructor
  · rintro ⟨own, headed, hown, hheads, htable, hconsistent⟩
    cases hown
    cases hheads
    rw [hdups, List.map_singleton, hfilter] at htable
    exact ⟨htable, hconsistent⟩
  · rintro ⟨htable, hconsistent⟩
    refine ⟨fields, _, rfl, rfl, ?_, hconsistent⟩
    rw [hdups, List.map_singleton, hfilter, htable]

theorem table?_of_plain (h : document.Plain key fields items) (hnodup : fields.keys.Nodup) :
    ∃ table, document.table? = some table ∧ table.keys.Nodup ∧ ∀ field, field ∈ table ↔
      field ∈ fields ∨ field = (key, .array (items.map .table)) := by
  cases h with
  | inline there =>
    refine ⟨fields, table?_eq_some_iff.2 ⟨fields, [], fields.mapM_plainEntries, rfl, by simp,
      .of_nodup hnodup⟩, hnodup, fun field => ⟨.inl, ?_⟩⟩
    rintro (hmem | rfl)
    · exact hmem
    · exact there
  | sections nonempty elsewhere =>
    let table : Table := fields ++ [(key, .array (items.map .table))]
    have hkeys : table.keys.Nodup := by
      simp only [table, Table.keys, List.map_append, List.map_cons, List.map_nil]
      exact List.nodup_append.2 ⟨hnodup, by simp, by
        rintro _ hmem _ hkey rfl
        exact elsewhere (List.mem_singleton.1 hkey ▸ hmem)⟩
    have hheads : ∀ block ∈ items.map (Section.ofElement key),
        block.heading.key.head? = some key := by
      simp [Section.ofElement]
    refine ⟨table, (table?_eq_of_headed (by simpa using nonempty) hheads
      fields.mapM_plainEntries).2 ⟨?_, .of_nodup hkeys⟩, hkeys, fun field => by simp [table]⟩
    rw [Section.value_ofElement]

/-- Sections all begin with one part if what stands under any other is a string. -/
theorem head?_of_others (h : document.table? = some table)
    (hothers : ∀ field ∈ table, field.1 ≠ key → ∃ text, field.2 = .string text) :
    ∀ block ∈ document.sections, block.heading.key.head? = some key := by
  obtain ⟨own, headed, -, hheaded, htable, -⟩ := table?_eq_some_iff.1 h
  intro block hmem
  obtain ⟨other, hother, hhead⟩ := exists_of_mapM_eq_some hheaded hmem
  by_cases hkey : other = key
  · rw [hhead, hkey]
  · obtain ⟨text, htext⟩ := hothers (other, _) (htable ▸ List.mem_append_right _
      (List.mem_map.2 ⟨other, List.mem_eraseDups.2 hother, rfl⟩)) hkey
    exact absurd htext Section.value_ne_string

/-- A document whose entries are plain and whose sections begin with one part is written plainly, as
far as there is an array of plain tables under that part. -/
theorem plain_of_headed (h : document.table? = some table) (hnodup : table.keys.Nodup)
    (hmem : (key, .array (items.map .table)) ∈ table)
    (hentries : document.entries = fields.plainEntries)
    (hheads : ∀ block ∈ document.sections, block.heading.key.head? = some key)
    (hitems : ∀ entries ∈ items, ∀ entry ∈ entries, entry.2.isTable = false) :
    document.Plain key fields items := by
  obtain ⟨entries, sections⟩ := document
  obtain rfl : entries = fields.plainEntries := hentries
  by_cases hsections : sections = []
  · subst hsections
    obtain ⟨own, headed, hown, hheaded, htable, -⟩ := table?_eq_some_iff.1 h
    cases fields.mapM_plainEntries.symm.trans hown
    cases hheaded
    exact .inline (by simpa [htable] using hmem)
  · have htable := ((table?_eq_of_headed hsections hheads fields.mapM_plainEntries).1 h).1
    have hvalue : Section.value sections = .array (items.map .table) :=
      Table.eq_of_mem hnodup (by simp [htable]) hmem
    have helsewhere : key ∉ fields.keys := by
      rw [htable, Table.keys, List.map_append] at hnodup
      intro hkey
      exact (List.nodup_append.1 hnodup).2.2 key hkey key (by simp) rfl
    obtain rfl := Section.eq_map_ofElement hvalue hheads hitems
    exact .sections (by simpa using hsections) helsewhere

/-- A document is written plainly if it gives one key an array of tables, of which none has a table
in it, and strings to all others. -/
theorem exists_plain (h : document.table? = some table)
    (harray : table.lookup key = some (.array (items.map .table)))
    (hothers : ∀ field ∈ table, field.1 ≠ key → ∃ text, field.2 = .string text)
    (hitems : ∀ entries ∈ items, ∀ entry ∈ entries, entry.2.isTable = false) :
    ∃ fields, document.Plain key fields items ∧ fields.keys.Nodup := by
  obtain ⟨own, headed, hown, -, htable, hconsistent⟩ := table?_eq_some_iff.1 h
  have hplain : ∀ field ∈ table, field.2.isTable = false := by
    rintro ⟨other, value⟩ hmem
    by_cases hkey : other = key
    · subst hkey
      rw [hconsistent.eq_of_lookup harray rfl hmem]
      rfl
    · obtain ⟨text, hvalue⟩ := hothers _ hmem hkey
      rw [hvalue]
      rfl
  have hnodup := hconsistent.nodup hplain
  have hentries := Table.eq_plainEntries hown fun field hmem =>
    hplain field (htable ▸ List.mem_append_left _ hmem)
  refine ⟨own, plain_of_headed h hnodup (Table.mem_of_lookup harray) hentries
    (head?_of_others h hothers) hitems, ?_⟩
  rw [htable, Table.keys, List.map_append] at hnodup
  exact (List.nodup_append.1 hnodup).1

end Document

end Toml

end DnsMatch
